/-
Module: Zigopt.Web.PageableRight
Layer: Web
Purpose: What the paging component shows. With a fetcher that answers rightly, every page that is filled is the page of
  the results at its index in the order that they are shown in, from whichever end the pages are filled and in whatever
  order the responses come; and a response to a request from before a reset is dropped.
Main exports: CorrectResponse, PagesRight, LateIgnored, Allowed, Consistent, pages_right
-/
import Mathlib.Data.List.Range
import Zigopt.Lib.Trace
import Zigopt.Web.Pageable

namespace Zigopt.Web.Paged

variable {α κ ν : Type}

/-! ### Pages of a list -/

section Pages

variable (pageSize : ℕ) (results : List α)

def pageCount : ℕ := (results.length + pageSize - 1) / pageSize

/-- The page at this index. -/
def pageOf (index : ℕ) : List α := (results.drop (index * pageSize)).take pageSize

/-- The results in the order of a request. -/
def directed (ascending : Bool) : List α := if ascending then results else results.reverse

variable {pageSize results}

theorem pageCount_spec (positive : 0 < pageSize) (index : ℕ) :
    index < pageCount pageSize results ↔ index * pageSize < results.length := by
  rw [pageCount, Nat.lt_iff_add_one_le, Nat.le_div_iff_mul_le positive, Nat.add_mul]
  omega

/-- A page that is fetched from the back, with as much as it has. -/
theorem pageOf_from_back {index : ℕ} (inside : index * pageSize < results.length) :
    ((results.reverse.drop (results.length - (index + 1) * pageSize)).take
        (min results.length ((index + 1) * pageSize) - index * pageSize)).reverse =
      pageOf pageSize results index := by
  have larger : index * pageSize ≤ (index + 1) * pageSize := Nat.mul_le_mul_right _ (Nat.le_succ _)
  have skipped : results.length - (index + 1) * pageSize =
      results.length - min results.length ((index + 1) * pageSize) := by omega
  have kept : (results.take (min results.length ((index + 1) * pageSize))).length =
      min results.length ((index + 1) * pageSize) := List.length_take_of_le (Nat.min_le_left _ _)
  have front : min results.length ((index + 1) * pageSize) -
      (min results.length ((index + 1) * pageSize) - index * pageSize) = index * pageSize := by omega
  have whole : results.length - (results.length - min results.length ((index + 1) * pageSize)) =
      min results.length ((index + 1) * pageSize) := by omega
  rw [skipped, List.drop_reverse, whole, List.take_reverse, List.reverse_reverse, kept, front, List.drop_take, pageOf,
    List.take_eq_take_iff, List.length_drop]
  have next : (index + 1) * pageSize = index * pageSize + pageSize := Nat.succ_mul _ _
  omega

theorem directed_not (ascending : Bool) (results : List α) :
    directed results (!ascending) = (directed results ascending).reverse := by
  cases ascending with
  | true => rfl
  | false => exact (List.reverse_reverse _).symm

theorem length_directed (ascending : Bool) (results : List α) : (directed results ascending).length = results.length := by
  cases ascending with
  | true => rfl
  | false => exact List.length_reverse

end Pages

/-! ### The fetcher -/

/-- The cursor of the direction of a request. -/
def PageParams.cursor (params : PageParams κ) : Option κ :=
  (if params.ascending then params.after else params.before).getD none

/-- The cursor that the next request goes on from. -/
def PageResponse.next (response : PageResponse α κ) (ascending : Bool) : Option κ :=
  if ascending then response.after else response.before

/-- How many results come before those that are asked for; `position` is what a cursor stands for in a direction. -/
def startOf (position : Bool → κ → ℕ) (ascending : Bool) (cursor : Option κ) : ℕ :=
  cursor.elim 0 (position ascending)

/-- A response with the right page and count, and with a cursor for the next page where there is one. -/
structure CorrectResponse (results : List α) (position : Bool → κ → ℕ) (params : PageParams κ)
    (response : PageResponse α κ) : Prop where
  count : response.count = results.length
  data : response.data =
    ((directed results params.ascending).drop (startOf position params.ascending params.cursor)).take params.limit
  last : results.length ≤ startOf position params.ascending params.cursor + params.limit →
    response.next params.ascending = none
  more : startOf position params.ascending params.cursor + params.limit < results.length →
    ∃ cursor, response.next params.ascending = some cursor ∧
      position params.ascending cursor = startOf position params.ascending params.cursor + params.limit

/-! ### What the pages are to be -/

/-- Every page that is filled is the page at its index. -/
def PagesRight (pageSize : ℕ) (results : List α) (pager : PagerState α κ ν) : Prop :=
  ∀ index data, pager.pageData.lookup index = some data →
    ∃ number : ℕ, index = number ∧ data = pageOf pageSize (directed results pager.sortAscending) number

/-- A response to a request from before a reset changes nothing. -/
def LateIgnored (before : PagerSystem α κ ν) (event : PagerEvent α κ) (after : PagerSystem α κ ν) : Prop :=
  match event with
  | .response position _ => ∀ request, before.inFlight[position]? = some request → request.resets < before.resets →
      after = { before with inFlight := before.inFlight.eraseIdx position }
  | _ => True

/-- Pages can be navigated to and reversed where there are some, and responses are right. -/
def Allowed (results : List α) (position : Bool → κ → ℕ) (before : PagerSystem α κ ν) (event : PagerEvent α κ) : Prop :=
  match event with
  | .navigateToPage _ => 0 < before.pager.numPages
  | .reverse => 0 < before.pager.numPages
  | .response index response => ∀ request, before.inFlight[index]? = some request →
      CorrectResponse results position request.params response
  | _ => True

/-! ### The invariant -/

section Invariant

variable (pageSize : ℕ) (results : List α) (position : Bool → κ → ℕ) (nonces : ℕ → ν)

/-- The index of the page that is filled after so many others. -/
def pageIndex (increment : ℤ) (filled : ℕ) : ℕ :=
  if increment = 1 then filled else pageCount pageSize results - 1 - filled

/-- How many results have been fetched with so many pages. -/
def fetched (increment : ℤ) (filled : ℕ) : ℕ :=
  if increment = 1 then filled * pageSize else results.length - (pageCount pageSize results - filled) * pageSize

/-- How many results belong to the next page, or may belong to it. -/
def sizeFor (increment : ℤ) (filled : ℕ) : ℕ :=
  if increment = 1 then
    pageSize
  else
    min results.length ((pageIndex pageSize results increment filled + 1) * pageSize) -
      pageIndex pageSize results increment filled * pageSize

/-- There is something to be fetched, as far as is known. -/
def MayFetch (increment : ℤ) (filled : ℕ) : Prop :=
  increment = 1 ∧ filled = 0 ∨ fetched pageSize results increment filled < results.length

/-- The pages as they are filled one after the other. -/
def filledPages (increment : ℤ) (sortAscending : Bool) (filled : ℕ) : List (ℤ × List α) :=
  (List.range filled).map fun earlier => ((pageIndex pageSize results increment earlier : ℤ),
    pageOf pageSize (directed results sortAscending) (pageIndex pageSize results increment earlier))

/-- A request for the page that is filled after so many others. -/
structure RequestRight (pager : PagerState α κ ν) (request : PageRequest κ ν) (filled : ℕ) : Prop where
  index : request.index = pageIndex pageSize results pager.increment filled
  ascending : request.params.ascending = pager.getAscending
  start : startOf position request.params.ascending request.params.cursor =
    fetched pageSize results pager.increment filled
  limit : request.params.limit = sizeFor pageSize results pager.increment filled
  mayFetch : MayFetch pageSize results pager.increment filled

/-- The cursor of the direction in which pages are filled. -/
def PagerState.cursor (pager : PagerState α κ ν) : Option κ :=
  if pager.getPageWithBefore then pager.before else pager.after

structure PagerRight (pager : PagerState α κ ν) : Prop where
  direction : pager.increment = 1 ∨ pager.increment = -1
  known : pager.numPages = pageCount pageSize results ∧ pager.numResults = some results.length ∨
    pager.increment = 1 ∧ pager.pageData = [] ∧ pager.numPages = 0
  notEmpty : pager.increment = -1 → 0 < results.length
  pages : pager.pageData =
    filledPages pageSize results pager.increment pager.sortAscending pager.pageData.length
  paging : pager.isPaging = true →
    startOf position pager.getAscending pager.cursor =
        fetched pageSize results pager.increment pager.pageData.length ∧
      MayFetch pageSize results pager.increment pager.pageData.length

/-- The invariant of the pager with its requests: its pages are right, and so is every request that is not out of
    date. -/
structure Consistent (system : PagerSystem α κ ν) : Prop where
  pager : PagerRight pageSize results position system.pager
  nonce : system.pager.pagingNonce = nonces system.resets
  numbered : ∀ request ∈ system.inFlight, request.resets ≤ system.resets ∧ request.prevNonce = nonces request.resets
  requests : ∀ request ∈ system.inFlight, request.resets = system.resets →
    ∃ filled ≤ system.pager.pageData.length, RequestRight pageSize results position system.pager request filled

end Invariant

/-! ### Directions -/

section Directions

variable {pager : PagerState α κ ν}

theorem getAscending_forward (forward : pager.increment = 1) : pager.getAscending = pager.sortAscending := by
  simp [PagerState.getAscending, forward]

theorem getAscending_backward (backward : pager.increment = -1) : pager.getAscending = !pager.sortAscending := by
  simp [PagerState.getAscending, backward]

theorem getPageWithBefore_eq (direction : pager.increment = 1 ∨ pager.increment = -1) :
    pager.getPageWithBefore = !pager.getAscending := by
  rcases direction with forward | backward
  · simp [PagerState.getAscending, PagerState.getPageWithBefore, forward]
  · simp [PagerState.getAscending, PagerState.getPageWithBefore, backward]

theorem cursor_paramsFor (direction : pager.increment = 1 ∨ pager.increment = -1) (pageSize : ℕ) (index : ℤ) :
    (pager.paramsFor pageSize index).cursor = pager.cursor := by
  rw [PagerState.paramsFor, PageParams.cursor, PagerState.cursor, getPageWithBefore_eq direction]
  cases pager.getAscending with
  | true => rfl
  | false => rfl

end Directions

/-! ### The pages that are left -/

section Left

variable {pageSize : ℕ} {results : List α} (positive : 0 < pageSize)

include positive

theorem pageCount_mul_ge : results.length ≤ pageCount pageSize results * pageSize := by
  have notLess := (pageCount_spec positive (pageCount pageSize results)).not.mp (lt_irrefl _)
  omega

omit positive in
theorem lt_pageCount_of_mayFetch {filled : ℕ} (mayFetch : MayFetch pageSize results (-1) filled) :
    filled < pageCount pageSize results := by
  rcases mayFetch with ⟨impossible, _⟩ | more
  · cases impossible
  · by_contra notLess
    have isZero : pageCount pageSize results - filled = 0 := by omega
    rw [fetched, if_neg (by decide), isZero, Nat.zero_mul] at more
    omega

/-- From the back, the next page is one that there is. -/
theorem pageIndex_inside {filled : ℕ} (mayFetch : MayFetch pageSize results (-1) filled) :
    pageIndex pageSize results (-1) filled * pageSize < results.length := by
  have left := lt_pageCount_of_mayFetch mayFetch
  rw [← pageCount_spec positive, pageIndex, if_neg (by decide)]
  omega

omit positive in
theorem fetched_back {filled : ℕ} (left : filled < pageCount pageSize results) :
    fetched pageSize results (-1) filled =
      results.length - (pageIndex pageSize results (-1) filled + 1) * pageSize := by
  have sameIndex : pageCount pageSize results - filled = pageIndex pageSize results (-1) filled + 1 := by
    rw [pageIndex, if_neg (by decide)]
    omega
  rw [fetched, if_neg (by decide), sameIndex]

/-- With the next page as much has been fetched as before it, and the page. -/
theorem fetched_succ {increment : ℤ} (direction : increment = 1 ∨ increment = -1) {filled : ℕ}
    (mayFetch : MayFetch pageSize results increment filled) :
    fetched pageSize results increment (filled + 1) =
      fetched pageSize results increment filled + sizeFor pageSize results increment filled := by
  rcases direction with rfl | rfl
  · exact Nat.succ_mul _ _
  · have left := lt_pageCount_of_mayFetch mayFetch
    have inside := pageIndex_inside positive mayFetch
    have sameIndex : pageCount pageSize results - (filled + 1) = pageIndex pageSize results (-1) filled := by
      rw [pageIndex, if_neg (by decide)]
      omega
    have next : (pageIndex pageSize results (-1) filled + 1) * pageSize =
        pageIndex pageSize results (-1) filled * pageSize + pageSize := Nat.succ_mul _ _
    rw [fetched_back left, fetched, if_neg (by decide), sameIndex, sizeFor, if_neg (by decide)]
    omega

/-- From the back, the first page may be a short one. -/
theorem sizeFor_back {filled : ℕ} (mayFetch : MayFetch pageSize results (-1) filled) :
    sizeFor pageSize results (-1) filled =
      if filled = 0 ∧ results.length % pageSize ≠ 0 then results.length % pageSize else pageSize := by
  have left := lt_pageCount_of_mayFetch mayFetch
  have inside := pageIndex_inside positive mayFetch
  have isIndex : pageIndex pageSize results (-1) filled = pageCount pageSize results - 1 - filled := if_neg (by decide)
  have nextPage : (pageIndex pageSize results (-1) filled + 1) * pageSize =
      pageIndex pageSize results (-1) filled * pageSize + pageSize := Nat.succ_mul _ _
  have nextInside : pageIndex pageSize results (-1) filled + 1 < pageCount pageSize results ↔
      (pageIndex pageSize results (-1) filled + 1) * pageSize < results.length := pageCount_spec positive _
  rw [sizeFor, if_neg (by decide)]
  by_cases isFirst : filled = 0
  · -- the last page: what is left of the results is its size, and their rest by whole pages
    have whole : results.length ≤ (pageIndex pageSize results (-1) filled + 1) * pageSize :=
      Nat.le_of_not_lt (nextInside.not.mp (by omega))
    rw [Nat.min_eq_left whole]
    have split : results.length = pageIndex pageSize results (-1) filled * pageSize +
        (results.length - pageIndex pageSize results (-1) filled * pageSize) := by omega
    by_cases isShort : results.length - pageIndex pageSize results (-1) filled * pageSize < pageSize
    · have rest : results.length % pageSize =
          results.length - pageIndex pageSize results (-1) filled * pageSize :=
        (congrArg (· % pageSize) split).trans (Nat.mul_add_mod_of_lt isShort)
      rw [if_pos ⟨isFirst, by omega⟩, rest]
    · have rest : results.length % pageSize = 0 := by
        have isWhole : results.length = (pageIndex pageSize results (-1) filled + 1) * pageSize := by omega
        rw [isWhole]
        exact Nat.mul_mod_left _ _
      rw [if_neg fun both => both.2 rest]
      omega
  · have inner : (pageIndex pageSize results (-1) filled + 1) * pageSize < results.length := by
      rw [← nextInside]
      omega
    rw [if_neg fun both => isFirst both.1, Nat.min_eq_right inner.le]
    omega

/-- What a right response to a right request holds is the page. -/
theorem page_of_request {increment : ℤ} (direction : increment = 1 ∨ increment = -1) {filled : ℕ}
    (mayFetch : MayFetch pageSize results increment filled) (sortAscending : Bool) {ascending : Bool}
    (isAscending : ascending = if increment = 1 then sortAscending else !sortAscending) {data : List α}
    (isData : data = ((directed results ascending).drop (fetched pageSize results increment filled)).take
      (sizeFor pageSize results increment filled)) :
    (if increment = 1 then data else data.reverse) =
      pageOf pageSize (directed results sortAscending) (pageIndex pageSize results increment filled) := by
  rcases direction with rfl | rfl
  · rw [if_pos rfl] at isAscending ⊢
    rw [isData, isAscending]
    rfl
  · rw [if_neg (by decide)] at isAscending ⊢
    have left := lt_pageCount_of_mayFetch mayFetch
    have inside := pageIndex_inside positive mayFetch
    rw [← length_directed sortAscending] at inside
    rw [isData, isAscending, directed_not, fetched_back left, sizeFor, if_neg (by decide), ← pageOf_from_back inside,
      length_directed]

end Left

/-! ### Requests -/

section Requests

variable {pageSize : ℕ} {results : List α} {position : Bool → κ → ℕ} {nonces : ℕ → ν}

theorem pageToFill_eq {pager : PagerState α κ ν} (right : PagerRight pageSize results position pager)
    (paging : pager.isPaging = true) :
    pager.pageToFill = pageIndex pageSize results pager.increment pager.pageData.length := by
  obtain ⟨_, mayFetch⟩ := right.paging paging
  rw [PagerState.pageToFill, pageIndex]
  rcases right.direction with forward | backward
  · rw [if_pos forward, if_pos forward]
  · have notForward : ¬pager.increment = 1 := by omega
    rw [backward] at mayFetch
    have left := lt_pageCount_of_mayFetch mayFetch
    rcases right.known with ⟨isCount, _⟩ | ⟨forward, _⟩
    · rw [if_neg notForward, if_neg notForward, isCount]
      omega
    · exact absurd forward notForward

theorem pageSizeFor_eq (positive : 0 < pageSize) {pager : PagerState α κ ν}
    (right : PagerRight pageSize results position pager) (paging : pager.isPaging = true) :
    pager.pageSizeFor pageSize pager.pageToFill =
      sizeFor pageSize results pager.increment pager.pageData.length := by
  obtain ⟨_, mayFetch⟩ := right.paging paging
  rcases right.direction with forward | backward
  · have notBackward : ¬pager.increment = -1 := by omega
    rw [PagerState.pageSizeFor, if_neg fun both => notBackward both.1, sizeFor, if_pos forward]
  · have notForward : ¬pager.increment = 1 := by omega
    rw [backward] at mayFetch
    have left := lt_pageCount_of_mayFetch mayFetch
    rcases right.known with ⟨isCount, isResults⟩ | ⟨forward, _⟩
    · have isLast : pager.pageToFill = pager.numPages - 1 ↔ pager.pageData.length = 0 := by
        rw [PagerState.pageToFill, if_neg notForward]
        omega
      rw [backward, sizeFor_back positive mayFetch, PagerState.pageSizeFor, isResults]
      simp only [Option.getD_some, backward, isLast, true_and]
    · exact absurd forward notForward

theorem requestRight_of_paging (positive : 0 < pageSize) {pager : PagerState α κ ν}
    (right : PagerRight pageSize results position pager) (paging : pager.isPaging = true) (nonce : ν) (resets : ℕ) :
    RequestRight pageSize results position pager
      { params := pager.paramsFor pageSize pager.pageToFill, index := pager.pageToFill, prevNonce := nonce,
        resets := resets } pager.pageData.length where
  index := pageToFill_eq right paging
  ascending := rfl
  start := by
    rw [cursor_paramsFor right.direction]
    exact (right.paging paging).1
  limit := pageSizeFor_eq positive right paging
  mayFetch := (right.paging paging).2

/-- A request that is sent is right. -/
theorem Consistent.kickPaging (positive : 0 < pageSize) {system : PagerSystem α κ ν}
    (consistent : Consistent pageSize results position nonces system) :
    Consistent pageSize results position nonces (kickPaging pageSize system) := by
  unfold Paged.kickPaging
  split
  next kicks =>
    have paging : system.pager.isPaging = true := (Bool.and_eq_true _ _ ▸ kicks).1
    refine ⟨consistent.pager, consistent.nonce, ?_, ?_⟩
    · intro request isRequest
      rcases List.mem_append.mp isRequest with earlier | isNew
      · exact consistent.numbered request earlier
      · rw [List.mem_singleton.mp isNew]
        exact ⟨le_rfl, consistent.nonce⟩
    · intro request isRequest current
      rcases List.mem_append.mp isRequest with earlier | isNew
      · exact consistent.requests request earlier current
      · rw [List.mem_singleton.mp isNew]
        exact ⟨_, le_rfl, requestRight_of_paging positive consistent.pager paging _ _⟩
  next _ => exact consistent

/-- After a reset no request is one of the new state. -/
theorem consistent_reset {system : PagerSystem α κ ν}
    (numbered : ∀ request ∈ system.inFlight, request.resets ≤ system.resets ∧ request.prevNonce = nonces request.resets)
    {state : ν → PagerState α κ ν} (right : ∀ nonce, PagerRight pageSize results position (state nonce))
    (hasNonce : ∀ nonce, (state nonce).pagingNonce = nonce) :
    Consistent pageSize results position nonces (reset nonces system state) where
  pager := right _
  nonce := hasNonce _
  numbered request isRequest := by
    obtain ⟨earlier, hasNonce⟩ := numbered request isRequest
    exact ⟨Nat.le_succ_of_le earlier, hasNonce⟩
  requests request isRequest current := by
    obtain ⟨earlier, _⟩ := numbered request isRequest
    exact absurd current (Nat.ne_of_lt (Nat.lt_succ_of_le earlier))

/-- Paging that starts anew at the front. -/
theorem pagerRight_of_fresh {pager : PagerState α κ ν} (forward : pager.increment = 1) (empty : pager.pageData = [])
    (noCursor : pager.cursor = none)
    (known : pager.numPages = pageCount pageSize results ∧ pager.numResults = some results.length ∨ pager.numPages = 0) :
    PagerRight pageSize results position pager where
  direction := Or.inl forward
  known := known.imp_right fun noPages => ⟨forward, empty, noPages⟩
  notEmpty backward := by omega
  pages := by
    rw [empty]
    rfl
  paging _ := by
    rw [noCursor, empty, forward]
    exact ⟨(Nat.zero_mul _).symm, Or.inl ⟨rfl, rfl⟩⟩

/-- Paging that starts anew at the back, where there are results. -/
theorem pagerRight_of_back (positive : 0 < pageSize) {pager : PagerState α κ ν} (backward : pager.increment = -1)
    (empty : pager.pageData = []) (noCursor : pager.cursor = none) (notEmpty : 0 < results.length)
    (known : pager.numPages = pageCount pageSize results ∧ pager.numResults = some results.length) :
    PagerRight pageSize results position pager where
  direction := Or.inr backward
  known := Or.inl known
  notEmpty _ := notEmpty
  pages := by
    rw [empty]
    rfl
  paging _ := by
    have nothing : fetched pageSize results (-1) 0 = 0 := by
      have enough : results.length ≤ pageCount pageSize results * pageSize := pageCount_mul_ge positive
      rw [fetched, if_neg (by decide), Nat.sub_zero]
      omega
    rw [noCursor, empty, backward]
    refine ⟨nothing.symm, Or.inr ?_⟩
    rw [List.length_nil, nothing]
    exact notEmpty

end Requests

/-! ### Events -/

section Events

variable {pageSize : ℕ} {results : List α} {position : Bool → κ → ℕ} {nonces : ℕ → ν}

theorem cursor_of_empty {pager : PagerState α κ ν} (noBefore : pager.before = none) (noAfter : pager.after = none) :
    pager.cursor = none := by
  rw [PagerState.cursor, noBefore, noAfter, ite_self]

theorem consistent_reloadPages (positive : 0 < pageSize) {system : PagerSystem α κ ν}
    (numbered : ∀ request ∈ system.inFlight, request.resets ≤ system.resets ∧ request.prevNonce = nonces request.resets)
    (startPage : Option ℤ) :
    Consistent pageSize results position nonces (reloadPages pageSize nonces system startPage) := by
  apply Consistent.kickPaging positive
  exact consistent_reset numbered
    (fun _ => pagerRight_of_fresh rfl rfl (cursor_of_empty rfl rfl) (Or.inr rfl)) fun _ => rfl

theorem Consistent.refreshPage (positive : 0 < pageSize) {system : PagerSystem α κ ν}
    (consistent : Consistent pageSize results position nonces system) :
    Consistent pageSize results position nonces (refreshPage pageSize nonces system) := by
  apply Consistent.kickPaging positive
  exact consistent_reset consistent.numbered
    (fun _ => pagerRight_of_fresh rfl rfl (cursor_of_empty rfl rfl) (Or.inr rfl)) fun _ => rfl

theorem Consistent.navigateToPage (positive : 0 < pageSize) {system : PagerSystem α κ ν}
    (consistent : Consistent pageSize results position nonces system) (pageNumber : ℤ) :
    Consistent pageSize results position nonces (navigateToPage pageSize system pageNumber) := by
  apply Consistent.kickPaging positive
  obtain ⟨direction, known, notEmpty, pages, paging⟩ := consistent.pager
  refine ⟨⟨direction, known, notEmpty, pages, paging⟩, consistent.nonce, consistent.numbered, ?_⟩
  intro request isRequest current
  obtain ⟨filled, earlier, index, ascending, start, limit, mayFetch⟩ := consistent.requests request isRequest current
  exact ⟨filled, earlier, index, ascending, start, limit, mayFetch⟩

/-- What is known of the results while there are pages. -/
theorem PagerRight.known_of_pages (positive : 0 < pageSize) {pager : PagerState α κ ν}
    (right : PagerRight pageSize results position pager) (hasPages : 0 < pager.numPages) :
    (pager.numPages = pageCount pageSize results ∧ pager.numResults = some results.length) ∧ 0 < results.length := by
  rcases right.known with known | ⟨_, _, noPages⟩
  · refine ⟨known, ?_⟩
    have somePages : 0 < pageCount pageSize results := by omega
    have inside := (pageCount_spec positive 0).mp somePages
    rwa [Nat.zero_mul] at inside
  · omega

/-- Reversing starts over from the other end; the requests of before are out of date. -/
theorem Consistent.reverse (positive : 0 < pageSize) {system : PagerSystem α κ ν}
    (consistent : Consistent pageSize results position nonces system) (hasPages : 0 < system.pager.numPages) :
    Consistent pageSize results position nonces (reverse pageSize nonces system) := by
  obtain ⟨known, notEmpty⟩ := consistent.pager.known_of_pages positive hasPages
  apply Consistent.kickPaging positive
  apply consistent_reset consistent.numbered _ fun _ => rfl
  intro nonce
  rcases consistent.pager.direction with forward | backward
  · refine pagerRight_of_back positive ?_ ?_ ?_ notEmpty ?_
    · exact congrArg Neg.neg forward
    · rfl
    · exact cursor_of_empty rfl rfl
    · exact known
  · refine pagerRight_of_fresh ?_ ?_ ?_ ?_
    · exact congrArg Neg.neg backward
    · rfl
    · exact cursor_of_empty rfl rfl
    · exact Or.inl known

/-- The page that is filled next is the first that is not filled yet. -/
theorem filled_of_lookup {increment : ℤ} {sortAscending : Bool} {filled count : ℕ} (earlier : filled ≤ count)
    (missing : (filledPages pageSize results increment sortAscending count).lookup
      (pageIndex pageSize results increment filled : ℤ) = none) : filled = count := by
  by_contra notCount
  have isFilled : filled ∈ List.range count := List.mem_range.mpr (by omega)
  have isEntry := List.mem_map_of_mem (f := fun earlier => ((pageIndex pageSize results increment earlier : ℤ),
    pageOf pageSize (directed results sortAscending) (pageIndex pageSize results increment earlier))) isFilled
  have notSame := List.lookup_eq_none_iff.mp missing _ isEntry
  simp at notSame

theorem filledPages_succ (increment : ℤ) (sortAscending : Bool) (filled : ℕ) :
    filledPages pageSize results increment sortAscending (filled + 1) =
      filledPages pageSize results increment sortAscending filled ++
        [((pageIndex pageSize results increment filled : ℤ),
          pageOf pageSize (directed results sortAscending) (pageIndex pageSize results increment filled))] := by
  rw [filledPages, List.range_succ, List.map_append]
  rfl

/-- The direction stays, so that the next cursor is the one that the response has for it. -/
theorem next_of_received {pager : PagerState α κ ν} (direction : pager.increment = 1 ∨ pager.increment = -1)
    (index : ℤ) (response : PageResponse α κ) :
    (pager.received pageSize index response).cursor = response.next pager.getAscending ∧
      (pager.received pageSize index response).isPaging = (response.next pager.getAscending).isSome := by
  have sameDirection : (pager.received pageSize index response).getPageWithBefore = !pager.getAscending :=
    getPageWithBefore_eq direction
  rw [PagerState.cursor, sameDirection, PagerState.received, getPageWithBefore_eq direction, PageResponse.next]
  cases pager.getAscending with
  | true => exact ⟨rfl, rfl⟩
  | false => exact ⟨rfl, rfl⟩

/-- A correct response to a right request fills its page. -/
theorem PagerRight.received (positive : 0 < pageSize) {pager : PagerState α κ ν}
    (right : PagerRight pageSize results position pager) {request : PageRequest κ ν}
    (requested : RequestRight pageSize results position pager request pager.pageData.length)
    {response : PageResponse α κ} (correct : CorrectResponse results position request.params response) :
    PagerRight pageSize results position (pager.received pageSize request.index response) := by
  obtain ⟨isNext, isPaging⟩ := @next_of_received _ _ _ pageSize _ right.direction request.index response
  obtain ⟨isIndex, isAscending, isStart, isLimit, mayFetch⟩ := requested
  have isFilled : (pager.received pageSize request.index response).pageData.length = pager.pageData.length + 1 :=
    List.length_append
  have isSum := fetched_succ positive right.direction mayFetch
  rw [← isStart, ← isLimit] at isSum
  refine ⟨right.direction, Or.inl ⟨?_, ?_⟩, right.notEmpty, ?_, ?_⟩
  · rw [PagerState.received, correct.count]
    rfl
  · rw [PagerState.received, correct.count]
  · have sameDirection : request.params.ascending =
        if pager.increment = 1 then pager.sortAscending else !pager.sortAscending := by
      rw [isAscending]
      rcases right.direction with forward | backward
      · rw [getAscending_forward forward, if_pos forward]
      · rw [getAscending_backward backward, if_neg (by omega)]
    have isData := correct.data
    rw [isStart, isLimit] at isData
    have isPage := page_of_request positive right.direction mayFetch pager.sortAscending sameDirection isData
    have isPages : pager.pageData ++
        [(request.index, if pager.increment = 1 then response.data else response.data.reverse)] =
        filledPages pageSize results pager.increment pager.sortAscending (pager.pageData.length + 1) := by
      rw [isPage, isIndex, filledPages_succ, ← right.pages]
    rw [isFilled]
    exact isPages
  · intro paging
    rw [isPaging, ← isAscending] at paging
    have isMore : startOf position request.params.ascending request.params.cursor + request.params.limit <
        results.length := by
      by_contra notMore
      rw [correct.last (Nat.le_of_not_lt notMore)] at paging
      cases paging
    obtain ⟨cursor, isCursor, isPosition⟩ := correct.more isMore
    have isStartNext : startOf position pager.getAscending (pager.received pageSize request.index response).cursor =
        fetched pageSize results pager.increment (pager.pageData.length + 1) := by
      rw [isNext, ← isAscending, isCursor, isSum]
      exact isPosition
    rw [isFilled]
    exact ⟨isStartNext, Or.inr (isSum ▸ isMore)⟩

/-- A response fills the next page, or it is dropped. -/
theorem Consistent.receivePage [DecidableEq ν] (positive : 0 < pageSize) (distinct : Function.Injective nonces)
    {system : PagerSystem α κ ν} (consistent : Consistent pageSize results position nonces system)
    {request : PageRequest κ ν} (hasNonce : request.prevNonce = nonces request.resets)
    (requested : request.resets = system.resets →
      ∃ filled ≤ system.pager.pageData.length, RequestRight pageSize results position system.pager request filled)
    {response : PageResponse α κ} (correct : CorrectResponse results position request.params response) :
    Consistent pageSize results position nonces (receivePage pageSize system request response) := by
  unfold Paged.receivePage
  split
  next isNew =>
    obtain ⟨sameNonce, missing⟩ := isNew
    rw [consistent.nonce, hasNonce] at sameNonce
    obtain ⟨filled, earlier, right⟩ := requested (distinct sameNonce).symm
    rw [consistent.pager.pages, right.index] at missing
    obtain rfl := filled_of_lookup earlier missing
    apply Consistent.kickPaging positive
    refine ⟨consistent.pager.received positive right correct, consistent.nonce, consistent.numbered, ?_⟩
    intro other isOther current
    obtain ⟨filled, earlier, index, ascending, start, limit, mayFetch⟩ := consistent.requests other isOther current
    have isFilled : (system.pager.received pageSize request.index response).pageData.length =
        system.pager.pageData.length + 1 := List.length_append
    exact ⟨filled, (Nat.le_succ_of_le earlier).trans_eq isFilled.symm, index, ascending, start, limit, mayFetch⟩
  next _ => exact consistent

/-- A request that is answered or dropped leaves the others right. -/
theorem Consistent.erase {system : PagerSystem α κ ν}
    (consistent : Consistent pageSize results position nonces system) (index : ℕ) :
    Consistent pageSize results position nonces { system with inFlight := system.inFlight.eraseIdx index } where
  pager := consistent.pager
  nonce := consistent.nonce
  numbered request isRequest := consistent.numbered request (List.mem_of_mem_eraseIdx isRequest)
  requests request isRequest := consistent.requests request (List.mem_of_mem_eraseIdx isRequest)

theorem PagerRight.pagesRight {pager : PagerState α κ ν} (right : PagerRight pageSize results position pager) :
    PagesRight pageSize results pager := by
  intro index data found
  rw [right.pages] at found
  obtain ⟨front, back, isPages, _⟩ := List.lookup_eq_some_iff.mp found
  have isEntry : (index, data) ∈ filledPages pageSize results pager.increment pager.sortAscending
      pager.pageData.length := by
    rw [isPages]
    simp
  obtain ⟨filled, _, isPair⟩ := List.mem_map.mp isEntry
  obtain ⟨rfl, rfl⟩ := Prod.mk.inj isPair
  exact ⟨_, rfl, rfl⟩

theorem consistent_mounted (positive : 0 < pageSize) (startPage : Option ℤ) :
    Consistent pageSize results position nonces (mounted pageSize nonces startPage) := by
  apply consistent_reloadPages positive
  intro request isRequest
  cases isRequest

variable [DecidableEq ν]

/-- An event is allowed, and leads to this state. -/
def Steps (pageSize : ℕ) (results : List α) (position : Bool → κ → ℕ) (nonces : ℕ → ν)
    (before : PagerSystem α κ ν) (event : PagerEvent α κ) (after : PagerSystem α κ ν) : Prop :=
  Allowed results position before event ∧ next pageSize nonces before event = some after

theorem consistent_next (positive : 0 < pageSize) (distinct : Function.Injective nonces)
    {before after : PagerSystem α κ ν} (consistent : Consistent pageSize results position nonces before)
    {event : PagerEvent α κ} (step : Steps pageSize results position nonces before event after) :
    Consistent pageSize results position nonces after := by
  obtain ⟨allowed, isNext⟩ := step
  cases event with
  | setSortAscending sortAscending =>
      obtain rfl := Option.some.inj isNext
      apply consistent_reloadPages positive
      exact consistent.numbered
  | reloadPages startPage =>
      obtain rfl := Option.some.inj isNext
      exact consistent_reloadPages positive consistent.numbered startPage
  | refreshPage =>
      obtain rfl := Option.some.inj isNext
      exact consistent.refreshPage positive
  | navigateToPage pageNumber =>
      obtain rfl := Option.some.inj isNext
      exact consistent.navigateToPage positive pageNumber
  | reverse =>
      obtain rfl := Option.some.inj isNext
      exact consistent.reverse positive allowed
  | response index response =>
      obtain ⟨request, isRequest, received⟩ := Option.bind_eq_some_iff.mp isNext
      obtain rfl := Option.some.inj received
      have inFlight := List.mem_of_getElem? isRequest
      exact (consistent.erase index).receivePage positive distinct (consistent.numbered request inFlight).2
        (consistent.requests request inFlight) (allowed request isRequest)

theorem late_ignored (distinct : Function.Injective nonces) {before after : PagerSystem α κ ν}
    (consistent : Consistent pageSize results position nonces before) {event : PagerEvent α κ}
    (isNext : next pageSize nonces before event = some after) : LateIgnored before event after := by
  cases event with
  | response index response =>
      intro request isRequest late
      obtain ⟨other, isOther, received⟩ := Option.bind_eq_some_iff.mp isNext
      obtain rfl := Option.some.inj (isOther.symm.trans isRequest)
      rw [← Option.some.inj received, receivePage, if_neg]
      rintro ⟨sameNonce, _⟩
      have hasNonce := (consistent.numbered other (List.mem_of_getElem? isRequest)).2
      have sameResets := distinct (consistent.nonce.symm.trans (sameNonce.trans hasNonce))
      omega
  | _ => trivial

/-- In every run of the component the pages that are filled are right in every state, and no response to a request from
before a reset changes anything. -/
theorem pages_right (positive : 0 < pageSize) (distinct : Function.Injective nonces) {startPage : Option ℤ}
    {steps : List (PagerEvent α κ × PagerSystem α κ ν)}
    (run : Trace.Every (Steps pageSize results position nonces) (mounted pageSize nonces startPage) steps) :
    (∀ system ∈ Trace.reached (mounted pageSize nonces startPage) steps, PagesRight pageSize results system.pager) ∧
      Trace.Every LateIgnored (mounted pageSize nonces startPage) steps := by
  have start : Consistent pageSize results position nonces (mounted pageSize nonces startPage) :=
    consistent_mounted positive startPage
  constructor
  · have everywhere : ∀ system ∈ Trace.reached (mounted pageSize nonces startPage) steps,
        Consistent pageSize results position nonces system := by
      apply Trace.every_invariant _ start run
      intro before event after consistent step
      exact consistent_next positive distinct consistent step
    exact fun system isReached => (everywhere system isReached).pager.pagesRight
  · apply Trace.every_of_invariant _ _ start run
    · intro before event after consistent step
      exact late_ignored distinct consistent step.2
    · intro before event after consistent step
      exact consistent_next positive distinct consistent step

end Events

/-! ### A reversal while a page is under way -/

/-- The pages of three results, of which the last ones come first: two, of which the second is late, and then from the
    back the last page and the one before it. -/
def reversing : List (PagerEvent ℕ ℕ) :=
  [.response 0 { data := [3, 2], before := some 2, after := none, count := 3 },
    .reverse,
    .response 0 { data := [1], before := none, after := none, count := 3 },
    .response 0 { data := [1], before := none, after := some 1, count := 3 },
    .response 0 { data := [2, 3], before := none, after := none, count := 3 }]

/-- The pager after an event, with pages of two. -/
def follow (system : PagerSystem ℕ ℕ ℕ) (event : PagerEvent ℕ ℕ) : PagerSystem ℕ ℕ ℕ :=
  (next 2 id system event).getD system

def reversingSteps : List (PagerEvent ℕ ℕ × PagerSystem ℕ ℕ ℕ) := Trace.play follow (mounted 2 id none) reversing

theorem reversing_run :
    Trace.Every (Steps 2 [1, 2, 3] (fun _ cursor => cursor) id) (mounted 2 id none) reversingSteps := by
  refine ⟨⟨?_, rfl⟩, ⟨(by decide : (0 : ℤ) < 2), rfl⟩, ⟨?_, rfl⟩, ⟨?_, rfl⟩, ⟨?_, rfl⟩, trivial⟩
  · intro request isRequest
    rw [← Option.some.inj isRequest]
    exact ⟨rfl, rfl, fun enough => absurd enough (by decide), fun _ => ⟨2, rfl, rfl⟩⟩
  · intro request isRequest
    rw [← Option.some.inj isRequest]
    exact ⟨rfl, rfl, fun _ => rfl, fun more => absurd more (by decide)⟩
  · intro request isRequest
    rw [← Option.some.inj isRequest]
    exact ⟨rfl, rfl, fun enough => absurd enough (by decide), fun _ => ⟨1, rfl, rfl⟩⟩
  · intro request isRequest
    rw [← Option.some.inj isRequest]
    exact ⟨rfl, rfl, fun _ => rfl, fun more => absurd more (by decide)⟩

/-- The late page is dropped, and both pages are filled from the back. -/
theorem pages_right_reversing :
    (∀ system ∈ Trace.reached (mounted 2 id none) reversingSteps, PagesRight 2 [1, 2, 3] system.pager) ∧
      Trace.Every LateIgnored (mounted 2 id none) reversingSteps ∧
      (reversingSteps.map fun step => step.2.pager.pageData) =
        [[(0, [3, 2])], [], [], [(1, [1])], [(1, [1]), (0, [3, 2])]] := by
  obtain ⟨right, ignored⟩ := pages_right (by decide) Function.injective_id reversing_run
  exact ⟨right, ignored, by decide +kernel⟩

end Zigopt.Web.Paged
