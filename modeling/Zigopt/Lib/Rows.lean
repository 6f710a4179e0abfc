/-
Module: Zigopt.Lib.Rows
Layer: Lib
Purpose: Tables as lists of rows, one column of which is a key. An update changes the rows that a filter
  selects and keeps the others; as long as it keeps the keys, a key names at most one row before and after.
Main exports: Rows.Keyed, Rows.find_iff, Rows.update, Rows.mem_update, Rows.keyed_update, Rows.groupBy,
  Rows.length_group_flatMap
-/
import Mathlib.Algebra.GroupWithZero.Nat
import Mathlib.Data.List.Dedup
import Mathlib.Data.List.Nodup

namespace Rows

/-- Ids are positive numbers. With this the id 1 brings no proof of its own. -/
instance neZero_one : NeZero (1 : ℕ) := ⟨Nat.one_ne_zero⟩

variable {ρ κ : Type} {key : ρ → κ} {rows : List ρ}

/-- No two rows have the same key. -/
def Keyed (key : ρ → κ) (rows : List ρ) : Prop := (rows.map key).Nodup

instance [DecidableEq κ] : Decidable (Keyed key rows) := inferInstanceAs (Decidable (rows.map key).Nodup)

theorem Keyed.eq_of_key (keyed : Keyed key rows) {first second : ρ} (firstMember : first ∈ rows)
    (secondMember : second ∈ rows) (same : key first = key second) : first = second :=
  List.inj_on_of_nodup_map keyed firstMember secondMember same

theorem keyed_append {new : ρ} (keyed : Keyed key rows) (fresh : ∀ row ∈ rows, key row ≠ key new) :
    Keyed key (rows ++ [new]) := by
  rw [Keyed, List.map_append, List.nodup_append]
  refine ⟨keyed, List.nodup_singleton _, ?_⟩
  intro first firstMember second secondMember same
  rcases List.mem_map.mp firstMember with ⟨row, member, rfl⟩
  rw [List.map_singleton, List.mem_singleton] at secondMember
  exact fresh row member (same.trans secondMember)

/-- Selecting rows keeps the keys distinct. -/
theorem keyed_filter (keyed : Keyed key rows) (selected : ρ → Bool) : Keyed key (rows.filter selected) :=
  keyed.sublist (List.filter_sublist.map key)

theorem keyed_reverse (keyed : Keyed key rows) : Keyed key rows.reverse := by
  rw [Keyed, List.map_reverse]
  exact List.nodup_reverse.mpr keyed

/-- A unique index over a nullable column, after some of the columns have become null. -/
theorem filterMap_sublist {ι : Type} {before after : ρ → Option ι}
    (cleared : ∀ row ∈ rows, after row = none ∨ after row = before row) :
    (rows.filterMap after).Sublist (rows.filterMap before) := by
  induction rows with
  | nil => exact List.Sublist.refl _
  | cons row rest inductionHypothesis =>
      rw [List.forall_mem_cons] at cleared
      have later := inductionHypothesis cleared.2
      rw [List.filterMap_cons, List.filterMap_cons]
      rcases cleared.1 with isNone | same
      · rw [isNone]
        cases before row with
        | none => exact later
        | some value => exact later.cons value
      · rw [same]
        cases before row with
        | none => exact later
        | some value => exact later.cons_cons value

/-- What the rows of distinct keys make is distinct, if it tells the key of its row. -/
theorem nodup_flatMap {β : Type} {make : ρ → List β} {owner : β → κ} (keyed : Keyed key rows)
    (once : ∀ row ∈ rows, (make row).Nodup) (owned : ∀ row ∈ rows, ∀ made ∈ make row, owner made = key row) :
    (rows.flatMap make).Nodup := by
  refine List.nodup_flatMap.mpr ⟨once, ?_⟩
  have apart : rows.Pairwise fun first second => key first ≠ key second := List.pairwise_map.mp keyed
  refine apart.imp_of_mem ?_
  intro first second firstMember secondMember distinct made madeByFirst madeBySecond
  exact distinct ((owned first firstMember made madeByFirst).symm.trans (owned second secondMember made madeBySecond))

/-- The rows of a key that is there are the one row. -/
theorem filterKey_eq [DecidableEq κ] (keyed : Keyed key rows) {row : ρ} (member : row ∈ rows) :
    rows.filter (fun other => key other = key row) = [row] := by
  induction rows with
  | nil => cases member
  | cons first rest inductionHypothesis =>
      obtain ⟨fresh, keyedRest⟩ := List.nodup_cons.mp keyed
      rw [List.mem_cons] at member
      by_cases isKey : key first = key row
      · have isFirst : row = first := by
          rcases member with isFirst | later
          · exact isFirst
          · exact absurd (List.mem_map.mpr ⟨row, later, isKey.symm⟩) fresh
        subst isFirst
        rw [List.filter_cons_of_pos (by simp), List.cons.injEq, List.filter_eq_nil_iff]
        refine ⟨rfl, ?_⟩
        intro other otherMember same
        exact fresh (List.mem_map.mpr ⟨other, otherMember, of_decide_eq_true same⟩)
      · rw [List.filter_cons_of_neg (by simpa using isKey)]
        refine inductionHypothesis keyedRest (member.resolve_left ?_)
        rintro rfl
        exact isKey rfl

/-- A query by key, with further filters, finds the row of that key if it passes them. -/
theorem find_iff [DecidableEq κ] (keyed : Keyed key rows) {id : κ} {filter : ρ → Bool} {row : ρ} :
    rows.find? (fun row => decide (key row = id) && filter row) = some row ↔
      row ∈ rows ∧ key row = id ∧ filter row = true := by
  constructor
  · intro found
    have passed := List.find?_some found
    rw [Bool.and_eq_true, decide_eq_true_iff] at passed
    exact ⟨List.mem_of_find?_eq_some found, passed⟩
  · rintro ⟨member, isKey, passed⟩
    cases found : rows.find? (fun row => decide (key row = id) && filter row) with
    | none =>
        have missed := List.find?_eq_none.mp found row member
        rw [isKey, passed] at missed
        exact absurd (by simp) missed
    | some other =>
        have otherPassed := List.find?_some found
        rw [Bool.and_eq_true, decide_eq_true_iff] at otherPassed
        rw [keyed.eq_of_key (List.mem_of_find?_eq_some found) member (otherPassed.1.trans isKey.symm)]

/-- In a keyed table the row of a key is found. -/
theorem findKey_iff [DecidableEq κ] (keyed : Keyed key rows) {id : κ} {row : ρ} :
    rows.find? (fun row => decide (key row = id)) = some row ↔ row ∈ rows ∧ key row = id := by
  have general : rows.find? (fun row => decide (key row = id) && true) = some row ↔
      row ∈ rows ∧ key row = id ∧ true = true := find_iff keyed
  simpa using general

/-! ### Updates -/

section Update

variable (selected : ρ → Prop) [DecidablePred selected] (change : ρ → ρ)

/-- `UPDATE … WHERE selected`. -/
def update (rows : List ρ) : List ρ :=
  rows.map fun row => if selected row then change row else row

variable {selected change}

/-- A row of an updated table is an old one, changed where it was selected. -/
theorem mem_update {row : ρ} :
    row ∈ update selected change rows ↔ ∃ old ∈ rows, (if selected old then change old else old) = row :=
  List.mem_map

theorem update_keys (keepsKey : ∀ row ∈ rows, selected row → key (change row) = key row) :
    (update selected change rows).map key = rows.map key := by
  rw [update, List.map_map]
  apply List.map_congr_left
  intro row member
  dsimp only [Function.comp]
  split
  · rename_i isSelected
    exact keepsKey row member isSelected
  · rfl

/-- An update that leaves the keys alone keeps them distinct. -/
theorem keyed_update (keepsKey : ∀ row ∈ rows, selected row → key (change row) = key row) :
    Keyed key (update selected change rows) ↔ Keyed key rows := by
  rw [Keyed, Keyed, update_keys keepsKey]

theorem update_congr {other : ρ → Prop} [DecidablePred other] (same : ∀ row, selected row ↔ other row) :
    update selected change rows = update other change rows := by
  rw [update, update]
  apply List.map_congr_left
  intro row _
  by_cases isSelected : selected row
  · rw [if_pos isSelected, if_pos ((same row).mp isSelected)]
  · rw [if_neg isSelected, if_neg fun isOther => isSelected ((same row).mpr isOther)]

theorem update_none (notSelected : ∀ row, ¬selected row) : update selected change rows = rows := by
  rw [update]
  conv_rhs => rw [← List.map_id rows]
  apply List.map_congr_left
  intro row _
  exact if_neg (notSelected row)

/-- Two updates that assign the same. -/
theorem update_update {other : ρ → Prop} [DecidablePred other]
    (assigns : ∀ row, change (change row) = change row) :
    update other change (update selected change rows) = update (fun row => selected row ∨ other row) change rows := by
  rw [update, update, update, List.map_map]
  apply List.map_congr_left
  intro row _
  dsimp only [Function.comp]
  by_cases first : selected row
  · simp only [first, if_true, assigns, ite_self, true_or]
  · simp only [first, if_false, false_or]

/-- An update, seen through a view of the rows that knows what it selects and how it changes them. -/
theorem map_update {selectedView : κ → Prop} [DecidablePred selectedView] {changeView : κ → κ}
    (sameSelected : ∀ row, selectedView (key row) ↔ selected row)
    (sameChange : ∀ row, key (change row) = changeView (key row)) :
    (update selected change rows).map key = update selectedView changeView (rows.map key) := by
  rw [update, update, List.map_map, List.map_map]
  apply List.map_congr_left
  intro row _
  dsimp only [Function.comp]
  by_cases isSelected : selected row
  · rw [if_pos isSelected, if_pos ((sameSelected row).mpr isSelected), sameChange]
  · rw [if_neg isSelected, if_neg fun inView => isSelected ((sameSelected row).mp inView)]

/-- What a query finds after an update that keeps what the query asks for. -/
theorem find_update {filter : ρ → Bool} (keepsFilter : ∀ row, selected row → filter (change row) = filter row) :
    (update selected change rows).find? filter =
      (rows.find? filter).map fun row => if selected row then change row else row := by
  rw [update, List.find?_map]
  congr 2
  funext row
  dsimp only [Function.comp]
  split
  · rename_i isSelected
    exact keepsFilter row isSelected
  · rfl

end Update

/-! ### Writing rows back -/

section WriteBack

variable [DecidableEq κ] (key : ρ → κ) (assign : ρ → ρ → ρ)

/-- Rows that were read earlier are written back by key: each assigns its columns to the row of its key. -/
def writeBack (updated rows : List ρ) : List ρ :=
  rows.map fun row =>
    match updated.find? fun other => decide (key other = key row) with
    | some other => assign row other
    | none => row

variable {key assign}

theorem writeBack_keys {ι : Type} {column : ρ → ι} (keepsColumn : ∀ row other, column (assign row other) = column row)
    (updated rows : List ρ) : (writeBack key assign updated rows).map column = rows.map column := by
  rw [writeBack, List.map_map]
  apply List.map_congr_left
  intro row _
  dsimp only [Function.comp]
  split
  · exact keepsColumn row _
  · rfl

/-- A row after others have been written back: it has got the columns of one of its key, or there was none. -/
theorem mem_writeBack {updated : List ρ} {new : ρ} (member : new ∈ writeBack key assign updated rows) :
    ∃ old ∈ rows, (∃ other ∈ updated, key other = key old ∧ new = assign old other) ∨
      ((∀ other ∈ updated, key other ≠ key old) ∧ new = old) := by
  rcases List.mem_map.mp member with ⟨old, oldMember, isNew⟩
  refine ⟨old, oldMember, ?_⟩
  cases found : updated.find? fun other => decide (key other = key old) with
  | some other =>
      rw [found] at isNew
      have named := List.find?_some found
      exact .inl ⟨other, List.mem_of_find?_eq_some found, of_decide_eq_true named, isNew.symm⟩
  | none =>
      rw [found] at isNew
      refine .inr ⟨?_, isNew.symm⟩
      intro other otherMember same
      exact List.find?_eq_none.mp found other otherMember (decide_eq_true same)

end WriteBack

/-! ### Grouping rows -/

section GroupBy

variable [DecidableEq κ]

/-- `GROUP BY`: each value of the key once, with its rows. -/
def groupBy (key : ρ → κ) (rows : List ρ) : List (κ × List ρ) :=
  (rows.map key).dedup.map fun value => (value, rows.filter fun row => key row = value)

/-- Rows of one key are one group. -/
theorem groupBy_of_same {value : κ} (nonempty : rows ≠ []) (same : ∀ row ∈ rows, key row = value) :
    groupBy key rows = [(value, rows)] := by
  have keys : (rows.map key).dedup = [value] := by
    rw [List.map_congr_left same, List.map_const', List.replicate_dedup]
    exact fun isEmpty => nonempty (List.length_eq_zero_iff.mp isEmpty)
  have allRows : rows.filter (fun row => key row = value) = rows := by
    rw [List.filter_eq_self]
    intro row member
    exact decide_eq_true (same row member)
  rw [groupBy, keys, List.map_singleton, allRows]

/-- Where each source makes a row of a value at most once, the group of that value has as many rows as there are
    sources that make one. -/
theorem length_group_flatMap {σ : Type} {make : σ → List κ} {sources : List σ}
    (once : ∀ source ∈ sources, (make source).Nodup) (value : κ) :
    ((sources.flatMap make).filter fun row => row = value).length =
      sources.countP fun source => value ∈ make source := by
  induction sources with
  | nil => rfl
  | cons source rest inductionHypothesis =>
      rw [List.forall_mem_cons] at once
      have ofSource : ((make source).filter fun row => row = value).length =
          if decide (value ∈ make source) = true then 1 else 0 := by
        rw [← List.countP_eq_length_filter]
        by_cases member : value ∈ make source
        · rw [if_pos (decide_eq_true member), ← List.count_eq_one_of_mem once.1 member, List.count]
          exact List.countP_congr (by simp)
        · rw [if_neg (by simpa using member), List.countP_eq_zero]
          intro row isRow isValue
          exact member (of_decide_eq_true isValue ▸ isRow)
      rw [List.flatMap_cons, List.filter_append, List.length_append, inductionHypothesis once.2, List.countP_cons,
        ofSource, Nat.add_comm]

end GroupBy

end Rows
