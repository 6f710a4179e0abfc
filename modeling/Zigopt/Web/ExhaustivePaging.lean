/-
Module: Zigopt.Web.ExhaustivePaging
Layer: Web
Purpose: Paging over a fetcher until there is no next page (`net/paging.js`), and the fetcher that pages over an array
  (`net/list.js`). Cursors are JavaScript numbers: a slice truncates them, so a limit need not be an integer.
Main exports: arrayPager, exhaustivelyPage, exhaustivelyPage_arrayPager
-/
import Mathlib.Algebra.Order.Floor.Ring
import Mathlib.Algebra.Order.Floor.Semiring
import Mathlib.Data.Rat.Floor
import Mathlib.Tactic.Linarith

namespace Zigopt.Web

variable {α ε : Type}

/-! ### Slices of an array -/

/-- A relative index of `Array.prototype.slice`: truncated, from the end if it is negative, and inside the array. -/
def sliceIndex (length : ℕ) (index : ℚ) : ℕ :=
  if index < 0 then (length + ⌈index⌉).toNat else min ⌊index⌋.toNat length

def slice (list : List α) (first last : ℚ) : List α :=
  (list.drop (sliceIndex list.length first)).take (sliceIndex list.length last - sliceIndex list.length first)

/-! ### The array pager -/

/-- A cursor or null. -/
abbrev Marker := Option ℚ

/-- A field of a block may be undefined, that is not there. -/
structure Paging where
  limit : Option ℚ := none
  before : Option Marker := none
  after : Option Marker := none
  ascending : Bool := false
deriving DecidableEq, Repr

structure ResponsePaging where
  before : Option Marker := none
  after : Option Marker := none

structure Response (α : Type) where
  count : ℕ
  data : List α
  paging : ResponsePaging

/-- `arrayPager(list)`, which answers at once. -/
def arrayPager (list : List α) (paging : Paging) : Except Unit (Response α) :=
  let pageSize := paging.limit.getD list.length
  if pageSize < 0 then
    .error ()
  else
    match paging.after with
    | none =>
        -- `paging.before || 0`: undefined, null and 0 are all 0
        let before := (paging.before.getD none).getD 0
        let nextPage := before + pageSize
        let newBefore := if nextPage < list.length then some nextPage else none
        .ok {
          count := list.length
          data := slice list before (newBefore.getD list.length)
          paging := { before := some newBefore } }
    | some marker =>
        let after := marker.getD list.length
        let prevPage := after - pageSize
        let newAfter := if 0 ≤ prevPage then some prevPage else none
        .ok {
          count := list.length
          data := (slice list (newAfter.getD 0) after).reverse
          paging := { after := some newAfter } }

/-! ### Exhaustive paging -/

structure PagerMonitor where
  cancelled : Bool := false

structure PagingOptions where
  limit : ℚ := 1000
  ascending : Bool := false
  monitor : Option PagerMonitor := none

def PagingOptions.cancelled (options : PagingOptions) : Bool :=
  options.monitor.any (·.cancelled)

/-- The block that is sent: the marker under the name of the direction. -/
def PagingOptions.block (options : PagingOptions) (marker : Marker) : Paging :=
  if options.ascending then
    { limit := some options.limit, after := some marker, ascending := true }
  else
    { limit := some options.limit, before := some marker, ascending := false }

/-- `getMarker`; undefined and null both end the paging. -/
def PagingOptions.getMarker (options : PagingOptions) (paging : ResponsePaging) : Marker :=
  (if options.ascending then paging.after else paging.before).getD none

/-- What is called while paging. -/
inductive Call (α ε : Type) where
  | request (paging : Paging)
  | success (data : List α)
  | error (failure : ε)
deriving DecidableEq, Repr

/-- `fetchNextPage`, over a fetcher that answers at once; without fuel no answer is given. -/
def fetchNextPage (fetcher : Paging → Except ε (Response α)) (options : PagingOptions) :
    ℕ → List α → Marker → Option (List (Call α ε))
  | 0, _, _ => none
  | fuel + 1, soFar, marker =>
      let request := Call.request (options.block marker)
      match fetcher (options.block marker) with
      | .ok response =>
          let data := soFar ++ response.data
          if options.cancelled then
            some [request]
          else
            match options.getMarker response.paging with
            | some nextMarker => (fetchNextPage fetcher options fuel data (some nextMarker)).map (request :: ·)
            | none => some [request, .success data]
      | .error failure => some (if options.cancelled then [request] else [request, .error failure])

/-- `exhaustivelyPage` with the calls that it makes, within the fuel. -/
def exhaustivelyPage (fetcher : Paging → Except ε (Response α)) (options : PagingOptions) (fuel : ℕ) :
    Option (List (Call α ε)) :=
  fetchNextPage fetcher options fuel [] none

/-! ### Slices between cursors -/

section Slices

variable {list : List α} {first last : ℚ}

theorem sliceIndex_of_nonneg {length : ℕ} (nonneg : 0 ≤ first) : sliceIndex length first = min ⌊first⌋₊ length := by
  rw [sliceIndex, if_neg (not_lt.mpr nonneg), Int.floor_toNat]

theorem sliceIndex_zero (length : ℕ) : sliceIndex length 0 = 0 := by
  rw [sliceIndex_of_nonneg le_rfl, Nat.floor_zero, Nat.zero_min]

theorem sliceIndex_length (length : ℕ) : sliceIndex length length = length := by
  rw [sliceIndex_of_nonneg (Nat.cast_nonneg length), Nat.floor_natCast, Nat.min_self]

theorem sliceIndex_mono {length : ℕ} (nonneg : 0 ≤ first) (ordered : first ≤ last) :
    sliceIndex length first ≤ sliceIndex length last := by
  rw [sliceIndex_of_nonneg nonneg, sliceIndex_of_nonneg (nonneg.trans ordered)]
  exact min_le_min_right _ (Nat.floor_mono ordered)

theorem sliceIndex_le {length : ℕ} (nonneg : 0 ≤ first) : sliceIndex length first ≤ length := by
  rw [sliceIndex_of_nonneg nonneg]
  exact min_le_right _ _

/-- A cursor that stays inside the array moves by an element at least. -/
theorem sliceIndex_lt {length : ℕ} (nonneg : 0 ≤ first) (apart : first + 1 ≤ last) (inside : last ≤ length) :
    sliceIndex length first < sliceIndex length last := by
  have lastNonneg : 0 ≤ last := by linarith
  have lastFloor : ⌊last⌋₊ ≤ length := Nat.floor_le_of_le inside
  have moved : ⌊first⌋₊ + 1 ≤ ⌊last⌋₊ := by
    rw [← Nat.floor_add_one nonneg]
    exact Nat.floor_mono apart
  rw [sliceIndex_of_nonneg nonneg, sliceIndex_of_nonneg lastNonneg]
  omega

/-- What is before the first cursor, then the slice. -/
theorem take_append_slice (nonneg : 0 ≤ first) (ordered : first ≤ last) :
    list.take (sliceIndex list.length first) ++ slice list first last = list.take (sliceIndex list.length last) := by
  rw [slice, ← List.take_add, Nat.add_sub_cancel' (sliceIndex_mono nonneg ordered)]

/-- The slice, then what is behind the last cursor. -/
theorem slice_append_drop (nonneg : 0 ≤ first) (ordered : first ≤ last) :
    slice list first last ++ list.drop (sliceIndex list.length last) = list.drop (sliceIndex list.length first) := by
  have behind : list.drop (sliceIndex list.length last) = (list.drop (sliceIndex list.length first)).drop
      (sliceIndex list.length last - sliceIndex list.length first) := by
    rw [List.drop_drop, Nat.add_sub_cancel' (sliceIndex_mono nonneg ordered)]
  rw [behind, slice, List.take_append_drop]

end Slices

/-! ### Paging over an array -/

section Array

variable {list : List α} {limit : ℚ}

/-- Some requests, each for one element more at least, and then the one success. -/
def Succeeds (calls : Option (List (Call α Unit))) (bound : ℕ) (data : List α) : Prop :=
  ∃ requests : List Paging, requests.length ≤ bound ∧ calls = some (requests.map .request ++ [.success data])

theorem Succeeds.after_request {calls : Option (List (Call α Unit))} {bound : ℕ} {data : List α}
    (succeeds : Succeeds calls bound data) (paging : Paging) :
    Succeeds (calls.map (.request paging :: ·)) (bound + 1) data := by
  obtain ⟨requests, few, rfl⟩ := succeeds
  exact ⟨paging :: requests, Nat.succ_le_succ few, rfl⟩

/-- Descending, all that is before the cursor has been read. -/
theorem fetchNextPage_descending (list : List α) (positive : 1 ≤ limit) : ∀ (fuel : ℕ) (marker : Marker),
    0 ≤ marker.getD 0 → marker.getD 0 ≤ list.length →
    list.length - sliceIndex list.length (marker.getD 0) < fuel →
      Succeeds (fetchNextPage (arrayPager list) { limit := limit } fuel
        (list.take (sliceIndex list.length (marker.getD 0))) marker)
        (list.length - sliceIndex list.length (marker.getD 0) + 1) list := by
  intro fuel
  induction fuel with
  | zero => exact fun _ _ _ enough => absurd enough (Nat.not_lt_zero _)
  | succ fuel inductionHypothesis =>
      intro marker nonneg inside enough
      generalize isBefore : marker.getD 0 = before at nonneg inside enough ⊢
      have notNegative : ¬limit < 0 := not_lt.mpr (zero_le_one.trans positive)
      by_cases more : before + limit < list.length
      · have answered : arrayPager list (PagingOptions.block { limit := limit } marker) = .ok {
            count := list.length
            data := slice list before (before + limit)
            paging := { before := some (some (before + limit)) } } := by
          simp [arrayPager, PagingOptions.block, isBefore, more, notNegative]
        have ordered : before ≤ before + limit := by linarith
        have moved := sliceIndex_lt nonneg (by linarith) more.le
        have fits : sliceIndex list.length (before + limit) ≤ list.length := sliceIndex_le (nonneg.trans ordered)
        have rest := inductionHypothesis (some (before + limit)) (nonneg.trans ordered) more.le
          (by rw [Option.getD_some]; omega)
        rw [Option.getD_some, ← take_append_slice nonneg ordered] at rest
        rw [fetchNextPage, answered]
        obtain ⟨requests, few, done⟩ := rest.after_request (PagingOptions.block { limit := limit } marker)
        exact ⟨requests, by omega, done⟩
      · have answered : arrayPager list (PagingOptions.block { limit := limit } marker) = .ok {
            count := list.length
            data := slice list before list.length
            paging := { before := some none } } := by
          simp [arrayPager, PagingOptions.block, isBefore, more, notNegative]
        have whole : list.take (sliceIndex list.length before) ++ slice list before list.length =
            list.take (sliceIndex list.length list.length) := take_append_slice nonneg inside
        rw [sliceIndex_length, List.take_length] at whole
        rw [fetchNextPage, answered]
        refine ⟨[PagingOptions.block { limit := limit } marker], Nat.le_add_left _ _, ?_⟩
        simp [PagingOptions.cancelled, PagingOptions.getMarker, whole]

/-- Ascending, all that is behind the cursor has been read, the last element first. -/
theorem fetchNextPage_ascending (list : List α) (positive : 1 ≤ limit) : ∀ (fuel : ℕ) (marker : Marker),
    0 ≤ marker.getD list.length → marker.getD list.length ≤ list.length →
    sliceIndex list.length (marker.getD list.length) < fuel →
      Succeeds (fetchNextPage (arrayPager list) { limit := limit, ascending := true } fuel
        (list.drop (sliceIndex list.length (marker.getD list.length))).reverse marker)
        (sliceIndex list.length (marker.getD list.length) + 1) list.reverse := by
  intro fuel
  induction fuel with
  | zero => exact fun _ _ _ enough => absurd enough (Nat.not_lt_zero _)
  | succ fuel inductionHypothesis =>
      intro marker nonneg inside enough
      generalize isAfter : marker.getD (list.length : ℚ) = after at nonneg inside enough ⊢
      have notNegative : ¬limit < 0 := not_lt.mpr (zero_le_one.trans positive)
      by_cases more : 0 ≤ after - limit
      · have answered : arrayPager list (PagingOptions.block { limit := limit, ascending := true } marker) = .ok {
            count := list.length
            data := (slice list (after - limit) after).reverse
            paging := { after := some (some (after - limit)) } } := by
          simp only [arrayPager, PagingOptions.block, if_true, Option.getD_some, notNegative, if_false, isAfter, more]
        have ordered : after - limit ≤ after := by linarith
        have moved := sliceIndex_lt more (by linarith) inside
        have rest := inductionHypothesis (some (after - limit)) more (ordered.trans inside)
          (by rw [Option.getD_some]; omega)
        rw [Option.getD_some, ← slice_append_drop more ordered, List.reverse_append] at rest
        rw [fetchNextPage, answered]
        obtain ⟨requests, few, done⟩ :=
          rest.after_request (PagingOptions.block { limit := limit, ascending := true } marker)
        exact ⟨requests, by omega, done⟩
      · have answered : arrayPager list (PagingOptions.block { limit := limit, ascending := true } marker) = .ok {
            count := list.length
            data := (slice list 0 after).reverse
            paging := { after := some none } } := by
          simp only [arrayPager, PagingOptions.block, if_true, Option.getD_some, notNegative, if_false, isAfter, more,
            Option.getD_none]
        have whole : slice list 0 after ++ list.drop (sliceIndex list.length after) =
            list.drop (sliceIndex list.length 0) := slice_append_drop le_rfl nonneg
        rw [sliceIndex_zero, List.drop_zero] at whole
        rw [fetchNextPage, answered]
        refine ⟨[PagingOptions.block { limit := limit, ascending := true } marker], Nat.le_add_left _ _, ?_⟩
        simp [PagingOptions.cancelled, PagingOptions.getMarker, ← List.reverse_append, whole]

/-- Paging over an array makes one request for each of its elements and one more at most, and then calls success once:
    with the array, or with the reversed array when ascending. -/
theorem exhaustivelyPage_arrayPager (list : List α) (limit : ℚ) (positive : 1 ≤ limit) (ascending : Bool) (fuel : ℕ)
    (enough : list.length < fuel) :
    ∃ requests : List Paging, requests.length ≤ list.length + 1 ∧
      exhaustivelyPage (arrayPager list) { limit := limit, ascending := ascending } fuel =
        some (requests.map .request ++ [.success (if ascending then list.reverse else list)]) := by
  cases ascending with
  | false =>
      have succeeds := fetchNextPage_descending list positive fuel none le_rfl (Nat.cast_nonneg _)
      rw [Option.getD_none, sliceIndex_zero, List.take_zero, Nat.sub_zero] at succeeds
      exact succeeds enough
  | true =>
      have succeeds := fetchNextPage_ascending list positive fuel none (Nat.cast_nonneg _) le_rfl
      rw [Option.getD_none, sliceIndex_length, List.drop_length, List.reverse_nil] at succeeds
      exact succeeds enough

/-- Three items in pages of two, from the back. -/
theorem exhaustivelyPage_three : ∃ requests : List Paging, requests.length ≤ 4 ∧
    exhaustivelyPage (arrayPager ["a", "b", "c"]) { limit := 2, ascending := true } 4 =
      some (requests.map .request ++ [.success ["c", "b", "a"]]) :=
  exhaustivelyPage_arrayPager ["a", "b", "c"] 2 (by decide +kernel) true 4 (by decide)

end Array

end Zigopt.Web
