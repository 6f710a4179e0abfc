/-
Module: Zigopt.Web.Pageable
Layer: Web
Purpose: The component that pages through results (`pagination/make-pageable.js`) as a machine: calls of its methods and
  responses of its fetcher, in any order. Pages are filled from the front or from the back; whatever starts paging anew
  draws a new nonce, and a response to a request with another nonce is dropped.
Main exports: PagerState, PagerSystem, PagerEvent, next
-/
import Mathlib.Data.Int.Notation
import Mathlib.Data.List.Basic

namespace Zigopt.Web.Paged

variable {α κ ν : Type}

/-! ### Requests and responses -/

/-- What a page is asked for with: one of the two cursors, which may be null. -/
structure PageParams (κ : Type) where
  before : Option (Option κ) := none
  after : Option (Option κ) := none
  limit : ℕ
  ascending : Bool

/-- A cursor that is null or otherwise falsy is none. -/
structure PageResponse (α κ : Type) where
  data : List α
  before : Option κ
  after : Option κ
  count : ℕ

/-- A request that has no response yet, with the page that it is for, and the number of resets before it. -/
structure PageRequest (κ ν : Type) where
  params : PageParams κ
  index : ℤ
  prevNonce : ν
  resets : ℕ

/-! ### The component -/

/-- `sortAscending` is false where it is undefined. -/
structure PagerState (α κ ν : Type) where
  after : Option κ := none
  before : Option κ := none
  farthestPage : Option ℤ := none
  increment : ℤ := 1
  isPaging : Bool := true
  numPages : ℤ := 0
  numResults : Option ℕ := none
  page : ℤ
  pageData : List (ℤ × List α) := []
  pagingNonce : ν
  lastSeenPage : Option (List α) := none
  sortAscending : Bool := false

/-- The component with its requests, and the number of nonces it has drawn. -/
structure PagerSystem (α κ ν : Type) where
  pager : PagerState α κ ν
  inFlight : List (PageRequest κ ν) := []
  resets : ℕ

/-- What the component can be asked to do, and the responses, which may come in any order. -/
inductive PagerEvent (α κ : Type) where
  | setSortAscending (sortAscending : Bool)
  | reloadPages (startPage : Option ℤ)
  | refreshPage
  | navigateToPage (pageNumber : ℤ)
  | reverse
  | response (position : ℕ) (response : PageResponse α κ)

def numPagesEachSide : ℤ := 3

def calculateEllipsisFlags (numPages currentPage : ℤ) : Bool × Bool :=
  let ellipsisNeeded := decide (numPages > 2 * numPagesEachSide + 1)
  (ellipsisNeeded && decide (currentPage - 0 > numPagesEachSide),
    ellipsisNeeded && decide (numPages - 1 - currentPage > numPagesEachSide))

def calculateFarthestPage (pageIndex numPages increment : ℤ) : ℤ :=
  match calculateEllipsisFlags numPages pageIndex with
  | (true, true) => pageIndex + increment
  | (true, false) => if increment = 1 then numPages - 1 else numPages - 1 - numPagesEachSide - 1
  | (false, true) => if increment = 1 then numPagesEachSide + 1 else 0
  | (false, false) => if increment = 1 then numPages - 1 else 0

namespace PagerState

def getPageWithBefore (pager : PagerState α κ ν) : Bool :=
  pager.sortAscending && decide (pager.increment = -1) || !pager.sortAscending && decide (pager.increment = 1)

def getAscending (pager : PagerState α κ ν) : Bool :=
  pager.sortAscending && decide (pager.increment = 1) || !pager.sortAscending && decide (pager.increment = -1)

/-- The page that is shown. -/
def shownPage (pager : PagerState α κ ν) : Option (List α) :=
  pager.pageData.lookup pager.page

/-- `_initialPagingState`, which leaves the sort order as it is. -/
def initialPagingState (sortAscending : Bool) (pagingNonce : ν) (startPage : ℤ) : PagerState α κ ν where
  page := startPage
  pagingNonce := pagingNonce
  sortAscending := sortAscending

def pageToFill (pager : PagerState α κ ν) : ℤ :=
  if pager.increment = 1 then pager.pageData.length else pager.numPages - 1 - pager.pageData.length

/-- `!farthestPage || continueKicking`: null and 0 stop nothing. -/
def continues (pager : PagerState α κ ν) : Bool :=
  match pager.farthestPage with
  | none => true
  | some farthestPage => decide (farthestPage = 0) ||
      if pager.increment = 1 then decide (pager.pageToFill ≤ farthestPage) else decide (pager.pageToFill ≥ farthestPage)

/-- The limit of a request; the last page may be a short one. -/
def pageSizeFor (pageSize : ℕ) (pager : PagerState α κ ν) (index : ℤ) : ℕ :=
  let rest := pager.numResults.getD 0 % pageSize
  if pager.increment = -1 ∧ index = pager.numPages - 1 ∧ rest ≠ 0 then rest else pageSize

/-- The parameters of the request for a page. -/
def paramsFor (pageSize : ℕ) (pager : PagerState α κ ν) (index : ℤ) : PageParams κ where
  before := if pager.getPageWithBefore then some pager.before else none
  after := if pager.getPageWithBefore then none else some pager.after
  limit := pager.pageSizeFor pageSize index
  ascending := pager.getAscending

/-- The state that a response leaves, where it is not dropped. -/
def received (pageSize : ℕ) (pager : PagerState α κ ν) (index : ℤ) (response : PageResponse α κ) :
    PagerState α κ ν :=
  let numPages : ℤ := ((response.count + pageSize - 1) / pageSize : ℕ)
  -- the page of the url may be greater than the number of pages
  let page := if numPages ≥ 0 ∧ pager.page ≥ numPages then 0 else pager.page
  { pager with
    pageData := pager.pageData ++ [(index, if pager.increment = 1 then response.data else response.data.reverse)]
    after := response.after
    before := response.before
    numPages := numPages
    page := page
    numResults := some response.count
    isPaging := if pager.getPageWithBefore then response.before.isSome else response.after.isSome
    farthestPage := some (calculateFarthestPage page numPages pager.increment) }

end PagerState

/-! ### Calls and responses -/

section Machine

-- `pageSize` is the property of the component, or 20; `nonces` is what `Math.random()` gives
variable (pageSize : ℕ) (nonces : ℕ → ν)

/-- `_fillPage`: a request is sent. -/
def fillPage (system : PagerSystem α κ ν) (index : ℤ) : PagerSystem α κ ν :=
  { system with
    inFlight := system.inFlight ++ [{
      params := system.pager.paramsFor pageSize index
      index := index
      prevNonce := system.pager.pagingNonce
      resets := system.resets }] }

/-- `_kickPaging`. -/
def kickPaging (system : PagerSystem α κ ν) : PagerSystem α κ ν :=
  if system.pager.isPaging && system.pager.continues then
    fillPage pageSize system system.pager.pageToFill
  else
    system

/-- A new state with a new nonce. -/
def reset (system : PagerSystem α κ ν) (state : ν → PagerState α κ ν) : PagerSystem α κ ν :=
  { system with
    pager := state (nonces (system.resets + 1))
    resets := system.resets + 1 }

def reloadPages (system : PagerSystem α κ ν) (startPage : Option ℤ) : PagerSystem α κ ν :=
  kickPaging pageSize (reset nonces system fun nonce =>
    { PagerState.initialPagingState system.pager.sortAscending nonce (startPage.getD 0) with
      lastSeenPage := system.pager.shownPage })

def refreshPage (system : PagerSystem α κ ν) : PagerSystem α κ ν :=
  kickPaging pageSize (reset nonces system fun nonce =>
    { PagerState.initialPagingState system.pager.sortAscending nonce 0 with
      lastSeenPage := system.pager.shownPage
      page := system.pager.page })

def setSortAscending (system : PagerSystem α κ ν) (sortAscending : Bool) : PagerSystem α κ ν :=
  reloadPages pageSize nonces { system with pager := { system.pager with sortAscending := sortAscending } } none

def navigateToPage (system : PagerSystem α κ ν) (pageNumber : ℤ) : PagerSystem α κ ν :=
  kickPaging pageSize { system with
    pager := { system.pager with
      page := pageNumber
      farthestPage := some (calculateFarthestPage pageNumber system.pager.numPages system.pager.increment) } }

def reverse (system : PagerSystem α κ ν) : PagerSystem α κ ν :=
  let newIncrement := -system.pager.increment
  let newPage := if newIncrement = 1 then 0 else system.pager.numPages - 1
  kickPaging pageSize (reset nonces system fun nonce =>
    { PagerState.initialPagingState system.pager.sortAscending nonce 0 with
      lastSeenPage := system.pager.shownPage
      increment := newIncrement
      page := newPage
      numPages := system.pager.numPages
      farthestPage := some (calculateFarthestPage newPage system.pager.numPages newIncrement)
      numResults := system.pager.numResults })

/-- `_receivePage`. -/
def receivePage [DecidableEq ν] (system : PagerSystem α κ ν) (request : PageRequest κ ν)
    (response : PageResponse α κ) : PagerSystem α κ ν :=
  if system.pager.pagingNonce = request.prevNonce ∧ system.pager.pageData.lookup request.index = none then
    kickPaging pageSize { system with pager := system.pager.received pageSize request.index response }
  else
    system

/-- What an event leads to; none if there is no such request. -/
def next [DecidableEq ν] (system : PagerSystem α κ ν) : PagerEvent α κ → Option (PagerSystem α κ ν)
  | .setSortAscending sortAscending => some (setSortAscending pageSize nonces system sortAscending)
  | .reloadPages startPage => some (reloadPages pageSize nonces system startPage)
  | .refreshPage => some (refreshPage pageSize nonces system)
  | .navigateToPage pageNumber => some (navigateToPage pageSize system pageNumber)
  | .reverse => some (reverse pageSize nonces system)
  | .response position response => do
      let request ← system.inFlight[position]?
      some (receivePage pageSize { system with inFlight := system.inFlight.eraseIdx position } request response)

/-- The component when it has been mounted. -/
def mounted (startPage : Option ℤ) : PagerSystem α κ ν :=
  reloadPages pageSize nonces {
    pager := PagerState.initialPagingState false (nonces 0) (startPage.getD 0)
    resets := 0 } startPage

end Machine

end Zigopt.Web.Paged
