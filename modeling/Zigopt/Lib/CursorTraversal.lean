/-
Module: Zigopt.Lib.CursorTraversal
Layer: Lib
Purpose: Cursor pagination in general. A paged source answers a cursor with a page and, when more is
  left, the next cursor; a traversal follows the cursors until none comes back. The one fact a paged
  source has to provide is that every cursor stands before some remaining list and that its page cuts
  the first `n` elements off that list. The second part cuts a strictly sorted list at one of its keys,
  which is how key-valued cursors come to stand before the rest of the list.
Main exports: CursorTraversal.Run, CursorTraversal.Slices, CursorTraversal.Slices.exists_run,
  CursorTraversal.filter_key_lt_append, CursorTraversal.filter_lt_key_append, CursorTraversal.same_take_iff
-/
import Mathlib.Data.List.Basic
import Mathlib.Data.List.Pairwise
import Mathlib.Data.List.Sort
import Mathlib.Data.List.TakeWhile
import Mathlib.Order.Basic

namespace CursorTraversal

variable {ε α γ κ : Type*}

/-- Following the cursors of a paged source from one cursor until no further cursor is returned; the
    list holds the pages in the order in which they were fetched. -/
inductive Run (fetch : Option γ → Except ε (List α × Option γ)) : Option γ → List (List α) → Prop where
  | last {cursor : Option γ} {page : List α} :
      fetch cursor = .ok (page, none) → Run fetch cursor [page]
  | more {cursor : Option γ} {page : List α} {next : γ} {pages : List (List α)} :
      fetch cursor = .ok (page, some next) → Run fetch (some next) pages →
        Run fetch cursor (page :: pages)

/-- A paged source has one traversal from a cursor. -/
theorem Run.deterministic {fetch : Option γ → Except ε (List α × Option γ)} {cursor : Option γ}
    {first second : List (List α)} (one : Run fetch cursor first) (two : Run fetch cursor second) :
    first = second := by
  induction one generalizing second with
  | last fetched =>
      cases two with
      | last other =>
          rw [fetched] at other
          simpa using other
      | more other _ =>
          rw [fetched] at other
          simp at other
  | more fetched _ inductionHypothesis =>
      cases two with
      | last other =>
          rw [fetched] at other
          simp at other
      | more other rest =>
          rw [fetched] at other
          simp only [Except.ok.injEq, Prod.mk.injEq, Option.some.injEq] at other
          obtain ⟨rfl, rfl⟩ := other
          rw [inductionHypothesis rest]

/-- A cursor that is answered with itself is never traversed. -/
theorem Run.not_of_loop {fetch : Option γ → Except ε (List α × Option γ)} {cursor : γ} {page : List α}
    (loops : fetch (some cursor) = .ok (page, some cursor)) (pages : List (List α)) :
    ¬ Run fetch (some cursor) pages := by
  intro run
  generalize start : some cursor = position at run
  induction run with
  | last fetched =>
      rw [← start, loops] at fetched
      simp at fetched
  | more fetched _ inductionHypothesis =>
      rw [← start, loops] at fetched
      apply inductionHypothesis
      simp only [Except.ok.injEq, Prod.mk.injEq] at fetched
      exact fetched.2

/-- `fetch` slices lists into pages of `n`: a cursor that stands before `rest` is answered with all of
    `rest` and no cursor when it fits one page, and otherwise with its first `n` elements and a cursor
    that stands before what is left. -/
structure Slices (fetch : Option γ → Except ε (List α × Option γ)) (n : Nat)
    (stands : Option γ → List α → Prop) : Prop where
  fits : ∀ {cursor rest}, stands cursor rest → rest.length ≤ n → fetch cursor = .ok (rest, none)
  cuts : ∀ {cursor rest}, stands cursor rest → n < rest.length →
    ∃ next, fetch cursor = .ok (rest.take n, some next) ∧ stands (some next) (rest.drop n)

/-- A slicing source with a positive page size is traversed completely: the traversal ends and its
    pages, one after the other, are the list the start cursor stood before. -/
theorem Slices.exists_run {fetch : Option γ → Except ε (List α × Option γ)} {n : Nat}
    {stands : Option γ → List α → Prop} (slices : Slices fetch n stands) (positive : 0 < n) :
    ∀ {cursor : Option γ} {rest : List α}, stands cursor rest →
      ∃ pages, Run fetch cursor pages ∧ pages.flatten = rest ∧ ∀ page ∈ pages, page.length ≤ n := by
  intro cursor rest
  -- Each page is nonempty while anything is left, so the remaining length is the measure.
  induction hlen : rest.length using Nat.strong_induction_on generalizing cursor rest with
  | _ len inductionHypothesis =>
      intro standing
      rcases Nat.lt_or_ge n rest.length with long | short
      · obtain ⟨next, fetched, standsNext⟩ := slices.cuts standing long
        have shorter : (rest.drop n).length < len := by
          rw [List.length_drop]
          omega
        obtain ⟨pages, run, flat, sizes⟩ := inductionHypothesis _ shorter rfl standsNext
        refine ⟨rest.take n :: pages, .more fetched run, ?_, ?_⟩
        · rw [List.flatten_cons, flat, List.take_append_drop]
        · intro page member
          rcases List.mem_cons.mp member with rfl | later
          · exact (List.length_take_le n rest)
          · exact sizes page later
      · refine ⟨[rest], .last (slices.fits standing short), by simp, ?_⟩
        intro page member
        rw [List.mem_singleton.mp member]
        exact short

/-- Only the answers at cursors that stand somewhere matter. -/
theorem Slices.congr {fetch other : Option γ → Except ε (List α × Option γ)} {n : Nat}
    {stands : Option γ → List α → Prop} (slices : Slices fetch n stands)
    (same : ∀ cursor rest, stands cursor rest → other cursor = fetch cursor) : Slices other n stands := by
  constructor
  · intro cursor rest standing short
    rw [same cursor rest standing]
    exact slices.fits standing short
  · intro cursor rest standing long
    rw [same cursor rest standing]
    exact slices.cuts standing long

/-!
### Cutting a strictly sorted list at a key

Markers are keys of listed items, so a marker splits the sorted list at the item it was taken from.
-/

section Cut

variable [Preorder κ] [DecidableLT κ] (key : α → κ)

/-- Strictly descending keys. -/
def StrictlyDescending (items : List α) : Prop :=
  items.Pairwise fun earlier later => key later < key earlier

variable {key}

omit [DecidableLT κ] in
theorem StrictlyDescending.le_head {items : List α} (sorted : StrictlyDescending key items) (nonempty : items ≠ [])
    {item : α} (member : item ∈ items) : key item ≤ key (items.head nonempty) := by
  cases items with
  | nil => exact absurd rfl nonempty
  | cons first rest =>
      rcases List.mem_cons.mp member with rfl | later
      · exact le_rfl
      · exact ((List.pairwise_cons.mp sorted).1 item later).le

omit [DecidableLT κ] in
theorem StrictlyDescending.getLast_le {items : List α} (sorted : StrictlyDescending key items)
    (nonempty : items ≠ []) {item : α} (member : item ∈ items) : key (items.getLast nonempty) ≤ key item := by
  have isSplit := List.dropLast_append_getLast nonempty
  rw [← isSplit] at member
  rcases List.mem_append.mp member with earlier | last
  · unfold StrictlyDescending at sorted
    rw [← isSplit, List.pairwise_append] at sorted
    exact (sorted.2.2 item earlier _ (List.mem_singleton_self _)).le
  · rw [List.mem_singleton.mp last]

/-- Below the key of a listed item lies exactly what follows the item. -/
theorem filter_key_lt_append {before after : List α} {item : α}
    (sorted : StrictlyDescending key (before ++ item :: after)) :
    (before ++ item :: after).filter (fun other => key other < key item) = after := by
  obtain ⟨-, tailSorted, cross⟩ := List.pairwise_append.mp sorted
  obtain ⟨below, -⟩ := List.pairwise_cons.mp tailSorted
  have none : before.filter (fun other => key other < key item) = [] := by
    rw [List.filter_eq_nil_iff]
    intro other member
    have above := cross other member item List.mem_cons_self
    simpa using lt_asymm above
  have all : after.filter (fun other => key other < key item) = after := by
    rw [List.filter_eq_self]
    intro other member
    simpa using below other member
  rw [List.filter_append, none, List.filter_cons_of_neg (by simp), all, List.nil_append]

/-- Above the key of a listed item lies exactly what precedes the item. -/
theorem filter_lt_key_append {before after : List α} {item : α}
    (sorted : StrictlyDescending key (before ++ item :: after)) :
    (before ++ item :: after).filter (fun other => key item < key other) = before := by
  obtain ⟨-, tailSorted, cross⟩ := List.pairwise_append.mp sorted
  obtain ⟨below, -⟩ := List.pairwise_cons.mp tailSorted
  have all : before.filter (fun other => key item < key other) = before := by
    rw [List.filter_eq_self]
    intro other member
    simpa using cross other member item List.mem_cons_self
  have none : after.filter (fun other => key item < key other) = [] := by
    rw [List.filter_eq_nil_iff]
    intro other member
    simpa using lt_asymm (below other member)
  rw [List.filter_append, all, List.filter_cons_of_neg (by simp), none, List.append_nil]

end Cut

/-!
### The beginnings of two sorted lists

Two sources may sort the same items differently, and each may have items that the other lacks. They still
begin with the same `n` items exactly if all items about which they differ lie behind `n` others.
-/

section Beginnings

variable {before otherwise : α → α → Bool} {items first second : List α} {n : Nat} {item : α}

/-- Each item comes before the later ones, and none before itself. -/
structure SortedBy (before : α → α → Bool) (items : List α) : Prop where
  pairwise : items.Pairwise fun earlier later => before earlier later = true ∧ before later earlier = false
  irrefl : ∀ item ∈ items, before item item = false

/-- One list has the item and the other has not, or they have it on different sides of another item. -/
def Disputed (before otherwise : α → α → Bool) (first second : List α) (item : α) : Prop :=
  (item ∈ first ↔ item ∉ second) ∨
    item ∈ first ∧ item ∈ second ∧ ∃ other ∈ first, other ∈ second ∧ before item other ≠ otherwise item other

/-- A dispute is symmetric. -/
theorem Disputed.symm (disputed : Disputed before otherwise first second item) :
    Disputed otherwise before second first item := by
  rcases disputed with oneSided | ⟨inFirst, inSecond, other, isFirst, isSecond, differ⟩
  · exact .inl (iff_not_comm.mp oneSided)
  · exact .inr ⟨inSecond, inFirst, other, isSecond, isFirst, differ.symm⟩

/-- The items before one of them are counted by the order. -/
theorem SortedBy.countP_eq {front back : List α} (sorted : SortedBy before (front ++ item :: back)) :
    (front ++ item :: back).countP (fun other => before other item) = front.length := by
  obtain ⟨-, tailSorted, cross⟩ := List.pairwise_append.mp sorted.pairwise
  obtain ⟨below, -⟩ := List.pairwise_cons.mp tailSorted
  have all : front.countP (fun other => before other item) = front.length :=
    List.countP_eq_length.mpr fun other member => (cross other member item List.mem_cons_self).1
  have none : back.countP (fun other => before other item) = 0 := by
    rw [List.countP_eq_zero]
    intro other member
    rw [(below other member).2]
    exact Bool.false_ne_true
  have notItself : ¬ before item item = true := by
    rw [sorted.irrefl item (List.mem_append_right _ List.mem_cons_self)]
    exact Bool.false_ne_true
  rw [List.countP_append, all, List.countP_cons_of_neg (p := fun other => before other item) notItself, none, Nat.add_zero]

theorem SortedBy.not_mem_front {front back : List α} (sorted : SortedBy before (front ++ item :: back)) :
    item ∉ front := by
  intro member
  obtain ⟨-, -, cross⟩ := List.pairwise_append.mp sorted.pairwise
  have earlier := (cross item member item List.mem_cons_self).1
  rw [sorted.irrefl item (List.mem_append_left _ member)] at earlier
  cases earlier

theorem SortedBy.mem_take_iff (sorted : SortedBy before items) (member : item ∈ items) :
    item ∈ items.take n ↔ items.countP (fun other => before other item) < n := by
  obtain ⟨front, back, rfl⟩ := List.append_of_mem member
  rw [sorted.countP_eq]
  constructor
  · intro inTake
    by_contra long
    rw [List.take_append_of_le_length (Nat.le_of_not_lt long)] at inTake
    exact sorted.not_mem_front (List.mem_of_mem_take inTake)
  · intro short
    obtain ⟨rest, isRest⟩ : ∃ rest, n - front.length = rest + 1 :=
      Nat.exists_eq_succ_of_ne_zero (Nat.sub_ne_zero_of_lt short)
    rw [List.take_append, isRest]
    exact List.mem_append_right _ List.mem_cons_self

/-- What is not taken comes after what is. -/
theorem SortedBy.before_of_taken (sorted : SortedBy before items) {other : α} (taken : item ∈ items.take n)
    (left : other ∉ items.take n) (member : other ∈ items) : before item other = true := by
  have split := List.take_append_drop n items
  rw [← split] at member
  have dropped : other ∈ items.drop n := (List.mem_append.mp member).resolve_left left
  have pairwise := sorted.pairwise
  rw [← split, List.pairwise_append] at pairwise
  exact (pairwise.2.2 item taken other dropped).1

theorem behind_of_same_take (sorted : SortedBy before first) (sortedOther : SortedBy otherwise second)
    (same : first.take n = second.take n) (disputed : Disputed before otherwise first second item)
    (member : item ∈ first) : n ≤ first.countP fun other => before other item := by
  by_contra short
  have taken := (sorted.mem_take_iff member).mpr (Nat.lt_of_not_le short)
  have takenOther := taken
  rw [same] at takenOther
  rcases disputed with oneSided | ⟨-, -, other, isFirst, isSecond, differ⟩
  · exact oneSided.mp member (List.mem_of_mem_take takenOther)
  · apply differ
    by_cases otherTaken : other ∈ first.take n
    · have otherTakenToo := otherTaken
      rw [same] at otherTakenToo
      have one := sorted.pairwise.sublist (List.take_sublist n first)
      have two := sortedOther.pairwise.sublist (List.take_sublist n second)
      rw [← same] at two
      have both := one.and two
      rcases eq_or_ne item other with rfl | apart
      · rw [sorted.irrefl item member, sortedOther.irrefl item (List.mem_of_mem_take takenOther)]
      · have agree : Std.Symm fun one two => before one two = otherwise one two ∧ before two one = otherwise two one :=
          ⟨fun _ _ agreed => agreed.symm⟩
        have sides : (first.take n).Pairwise fun one two =>
            before one two = otherwise one two ∧ before two one = otherwise two one := by
          apply both.imp
          rintro one two ⟨⟨after, notAfter⟩, otherAfter, notOtherAfter⟩
          exact ⟨after.trans otherAfter.symm, notAfter.trans notOtherAfter.symm⟩
        exact (sides.forall taken otherTaken apart).1
    · have otherLeft := otherTaken
      rw [same] at otherLeft
      rw [sorted.before_of_taken taken otherTaken isFirst, sortedOther.before_of_taken takenOther otherLeft isSecond]

/-- Two lists up to where they differ. -/
theorem exists_common (first second : List α) : ∃ common rest others, first = common ++ rest ∧
    second = common ++ others ∧ (rest = [] ∧ others = [] ∨ rest.head? ≠ others.head?) := by
  induction first generalizing second with
  | nil =>
      cases second with
      | nil => exact ⟨[], [], [], rfl, rfl, .inl ⟨rfl, rfl⟩⟩
      | cons other others => exact ⟨[], [], other :: others, rfl, rfl, .inr (by simp)⟩
  | cons item items inductionHypothesis =>
      cases second with
      | nil => exact ⟨[], item :: items, [], rfl, rfl, .inr (by simp)⟩
      | cons other others =>
          by_cases same : item = other
          · obtain ⟨common, rest, remaining, isFirst, isSecond, differ⟩ := inductionHypothesis others
            exact ⟨item :: common, rest, remaining, by rw [isFirst]; rfl, by rw [isSecond, same]; rfl, differ⟩
          · exact ⟨[], item :: items, other :: others, rfl, rfl, .inr (by simpa using same)⟩

/-- Two sorted lists have one first page exactly where every disputed item comes after it. -/
theorem same_take_iff (sorted : SortedBy before first) (sortedOther : SortedBy otherwise second) :
    first.take n = second.take n ↔ ∀ item, Disputed before otherwise first second item →
      (item ∈ first → n ≤ first.countP fun other => before other item) ∧
        (item ∈ second → n ≤ second.countP fun other => otherwise other item) := by
  constructor
  · intro same item disputed
    exact ⟨behind_of_same_take sorted sortedOther same disputed,
      behind_of_same_take sortedOther sorted same.symm disputed.symm⟩
  · intro behind
    obtain ⟨common, rest, others, rfl, rfl, differ⟩ := exists_common first second
    by_cases long : n ≤ common.length
    · rw [List.take_append_of_le_length long, List.take_append_of_le_length long]
    · rcases differ with ⟨rfl, rfl⟩ | differ
      · rfl
      · -- The items at which the lists part are too far in front to be disputed.
        exfalso
        apply long
        cases rest with
        | nil =>
            cases others with
            | nil => exact absurd rfl differ
            | cons other others =>
                have missing := sortedOther.not_mem_front
                have isSecond : other ∈ common ++ other :: others := List.mem_append_right _ List.mem_cons_self
                have disputed : Disputed before otherwise (common ++ []) (common ++ other :: others) other := by
                  left
                  simp [missing]
                rw [← sortedOther.countP_eq]
                exact (behind other disputed).2 isSecond
        | cons item rest =>
            have isFirst : item ∈ common ++ item :: rest := List.mem_append_right _ List.mem_cons_self
            have missing := sorted.not_mem_front
            rw [← sorted.countP_eq]
            cases others with
            | nil =>
                apply (behind item (.inl _)).1 isFirst
                simp [missing]
            | cons other others =>
                have apart : item ≠ other := by
                  intro same
                  exact differ (congrArg some same)
                have isSecond : other ∈ common ++ other :: others := List.mem_append_right _ List.mem_cons_self
                by_contra short
                have undisputed : ¬ Disputed before otherwise (common ++ item :: rest) (common ++ other :: others) item :=
                  fun disputed => short ((behind item disputed).1 isFirst)
                have undisputedOther :
                    ¬ Disputed before otherwise (common ++ item :: rest) (common ++ other :: others) other := by
                  intro disputed
                  apply short
                  rw [sorted.countP_eq, ← sortedOther.countP_eq]
                  exact (behind other disputed).2 isSecond
                have itemInSecond : item ∈ common ++ other :: others := by
                  by_contra notThere
                  exact undisputed (.inl ⟨fun _ => notThere, fun _ => isFirst⟩)
                have otherInFirst : other ∈ common ++ item :: rest := by
                  by_contra notThere
                  exact undisputedOther (.inl ⟨fun there => absurd there notThere, fun there => absurd isSecond there⟩)
                have itemLater : item ∈ others := by
                  rcases List.mem_append.mp itemInSecond with inCommon | later
                  · exact absurd inCommon missing
                  · exact (List.mem_cons.mp later).resolve_left apart
                have otherLater : other ∈ rest := by
                  rcases List.mem_append.mp otherInFirst with inCommon | later
                  · exact absurd inCommon sortedOther.not_mem_front
                  · exact (List.mem_cons.mp later).resolve_left apart.symm
                have itemFirst := (List.pairwise_cons.mp (List.pairwise_append.mp sorted.pairwise).2.1).1 other otherLater
                have otherFirst :=
                  (List.pairwise_cons.mp (List.pairwise_append.mp sortedOther.pairwise).2.1).1 item itemLater
                apply undisputed
                right
                refine ⟨isFirst, itemInSecond, other, otherInFirst, isSecond, ?_⟩
                rw [itemFirst.1, otherFirst.2]
                exact Bool.false_ne_true.symm

/-- Without a limit nothing may be disputed. -/
theorem eq_iff_undisputed (sorted : SortedBy before first) (sortedOther : SortedBy otherwise second) :
    first = second ↔ ∀ item, ¬ Disputed before otherwise first second item := by
  have whole := same_take_iff (n := first.length + second.length + 1) sorted sortedOther
  rw [List.take_of_length_le (by omega), List.take_of_length_le (by omega)] at whole
  rw [whole]
  refine forall_congr' fun item => ⟨?_, fun undisputed disputed => absurd disputed undisputed⟩
  intro behind disputed
  obtain ⟨inFirst, inSecond⟩ := behind disputed
  have short := List.countP_le_length (p := fun other => before other item) (l := first)
  have shortOther := List.countP_le_length (p := fun other => otherwise other item) (l := second)
  by_cases member : item ∈ first
  · have long := inFirst member
    omega
  · have isSecond : item ∈ second := by
      rcases disputed with oneSided | ⟨isFirst, -⟩
      · by_contra notThere
        exact member (oneSided.mpr notThere)
      · exact absurd isFirst member
    have long := inSecond isSecond
    omega

end Beginnings

end CursorTraversal
