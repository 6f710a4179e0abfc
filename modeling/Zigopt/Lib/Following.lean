/-
Module: Zigopt.Lib.Following
Layer: Lib
Purpose: Rows with a flag that follows the flag of the row that refers to them. Statements that set the flags of
  some owners and of some rows keep the flags together if they select an owner exactly when they select the row
  that it refers to.
Main exports: Following.Agree, Following.agree_set, Following.agree_append_row
-/
import Zigopt.Lib.Rows

namespace Following

variable {α β κ : Type} {link : α → Option κ} {key : β → κ} {ownerFlag : α → Bool} {rowFlag : β → Bool}

/-- A row that an owner refers to has the flag of the owner. -/
def Agree (link : α → Option κ) (key : β → κ) (ownerFlag : α → Bool) (rowFlag : β → Bool) (owners : List α)
    (rows : List β) : Prop :=
  ∀ owner ∈ owners, ∀ row ∈ rows, link owner = some (key row) → rowFlag row = ownerFlag owner

/-- The new rows are the old ones, some of which have a new flag. -/
def Flagged {γ ι : Type} (same : γ → ι) (flag : γ → Bool) (selected : γ → Prop) [DecidablePred selected]
    (value : Bool) (before after : List γ) : Prop :=
  ∀ new ∈ after, ∃ old ∈ before, same new = same old ∧
    flag new = if selected old then value else flag old

theorem flagged_refl {γ ι : Type} (same : γ → ι) (flag : γ → Bool) (value : Bool) (rows : List γ) :
    Flagged same flag (fun _ => False) value rows rows := by
  intro row member
  exact ⟨row, member, rfl, (if_neg not_false).symm⟩

/-- An update that leaves the links as they are. -/
theorem flagged_update {γ ι : Type} {same : γ → ι} {flag : γ → Bool} {selected : γ → Prop}
    [DecidablePred selected] {change : γ → γ} {value : Bool} {rows : List γ}
    (keepsSame : ∀ row, same (change row) = same row) (sets : ∀ row, flag (change row) = value) :
    Flagged same flag selected value rows (Rows.update selected change rows) := by
  intro new member
  rcases Rows.mem_update.mp member with ⟨old, oldMember, rfl⟩
  refine ⟨old, oldMember, ?_⟩
  split
  · exact ⟨keepsSame old, sets old⟩
  · exact ⟨rfl, rfl⟩

/-- An update that changes neither links nor flags. -/
theorem flagged_keep {γ ι : Type} {same : γ → ι} {flag : γ → Bool} {selected : γ → Prop}
    [DecidablePred selected] {change : γ → γ} (value : Bool) {rows : List γ}
    (keepsSame : ∀ row, same (change row) = same row) (keepsFlag : ∀ row, flag (change row) = flag row) :
    Flagged same flag (fun _ => False) value rows (Rows.update selected change rows) := by
  intro new member
  rcases Rows.mem_update.mp member with ⟨old, oldMember, rfl⟩
  refine ⟨old, oldMember, ?_⟩
  rw [if_neg not_false]
  split
  · exact ⟨keepsSame old, keepsFlag old⟩
  · exact ⟨rfl, rfl⟩

theorem flagged_congr {γ ι : Type} {same : γ → ι} {flag : γ → Bool} {selected selected' : γ → Prop}
    [DecidablePred selected] [DecidablePred selected'] {value : Bool} {before after : List γ}
    (sameSelected : ∀ row ∈ before, selected row ↔ selected' row)
    (flagged : Flagged same flag selected value before after) : Flagged same flag selected' value before after := by
  intro new member
  rcases flagged new member with ⟨old, oldMember, sameOld, flagOld⟩
  refine ⟨old, oldMember, sameOld, ?_⟩
  by_cases isSelected : selected old
  · rw [flagOld, if_pos isSelected, if_pos ((sameSelected old oldMember).mp isSelected)]
  · rw [flagOld, if_neg isSelected, if_neg fun other => isSelected ((sameSelected old oldMember).mpr other)]

/-- Rows none of which are selected may stay as they are. -/
theorem flagged_none {γ ι : Type} {same : γ → ι} {flag : γ → Bool} {selected : γ → Prop}
    [DecidablePred selected] (value : Bool) {rows : List γ} (none : ∀ row ∈ rows, ¬selected row) :
    Flagged same flag selected value rows rows :=
  flagged_congr (fun row member => iff_of_false not_false (none row member)) (flagged_refl same flag value rows)

/-- Setting one flag on owners and on the rows they follow keeps them in agreement. -/
theorem agree_set {ownerSelected : α → Prop} [DecidablePred ownerSelected] {rowSelected : β → Prop}
    [DecidablePred rowSelected] {value : Bool} {owners owners' : List α} {rows rows' : List β}
    (ownersSet : Flagged link ownerFlag ownerSelected value owners owners')
    (rowsSet : Flagged key rowFlag rowSelected value rows rows')
    (matched : ∀ owner ∈ owners, ∀ row ∈ rows, link owner = some (key row) →
      (ownerSelected owner ↔ rowSelected row))
    (agree : Agree link key ownerFlag rowFlag owners rows) :
    Agree link key ownerFlag rowFlag owners' rows' := by
  intro newOwner ownerMember newRow rowMember linked
  rcases ownersSet newOwner ownerMember with ⟨owner, oldOwner, sameLink, newOwnerFlag⟩
  rcases rowsSet newRow rowMember with ⟨row, oldRow, sameKey, newRowFlag⟩
  rw [sameLink, sameKey] at linked
  rw [newOwnerFlag, newRowFlag]
  by_cases selected : ownerSelected owner
  · rw [if_pos selected, if_pos ((matched owner oldOwner row oldRow linked).mp selected)]
  · rw [if_neg selected, if_neg fun isSelected => selected ((matched owner oldOwner row oldRow linked).mpr isSelected)]
    exact agree owner oldOwner row oldRow linked

/-- A row that no owner refers to may have any flag. -/
theorem agree_append_row {owners : List α} {rows : List β} {new : β}
    (unlinked : ∀ owner ∈ owners, link owner ≠ some (key new))
    (agree : Agree link key ownerFlag rowFlag owners rows) :
    Agree link key ownerFlag rowFlag owners (rows ++ [new]) := by
  intro owner ownerMember row rowMember linked
  rcases List.mem_append.mp rowMember with before | isNew
  · exact agree owner ownerMember row before linked
  · rw [List.mem_singleton.mp isNew] at linked
    exact absurd linked (unlinked owner ownerMember)

theorem agree_append_owner {owners : List α} {rows : List β} {new : α}
    (newAgrees : ∀ row ∈ rows, link new = some (key row) → rowFlag row = ownerFlag new)
    (agree : Agree link key ownerFlag rowFlag owners rows) :
    Agree link key ownerFlag rowFlag (owners ++ [new]) rows := by
  intro owner ownerMember
  rcases List.mem_append.mp ownerMember with before | isNew
  · exact agree owner before
  · rw [List.mem_singleton.mp isNew]
    exact newAgrees

/-- An owner that comes to refer to another row must have the flag of that row. -/
theorem agree_relink {selected : α → Prop} [DecidablePred selected] {change : α → α} {owners : List α}
    {rows : List β} (keepsFlag : ∀ owner, ownerFlag (change owner) = ownerFlag owner)
    (relinked : ∀ owner ∈ owners, selected owner → ∀ row ∈ rows, link (change owner) = some (key row) →
      rowFlag row = ownerFlag owner)
    (agree : Agree link key ownerFlag rowFlag owners rows) :
    Agree link key ownerFlag rowFlag (Rows.update selected change owners) rows := by
  intro new newMember row rowMember linked
  rcases Rows.mem_update.mp newMember with ⟨owner, member, rfl⟩
  by_cases isSelected : selected owner
  · rw [if_pos isSelected] at linked ⊢
    rw [keepsFlag]
    exact relinked owner member isSelected row rowMember linked
  · rw [if_neg isSelected] at linked ⊢
    exact agree owner member row rowMember linked

end Following
