/-
Module: Zigopt.Lib.LastWrite
Layer: Lib
Purpose: Tables that are filled by a list of entries one after the other, where a later entry replaces an
  earlier one of the same key; and the grouping of a list by a key, in the order the keys first appear.
Main exports: LastWrite.writeAll, LastWrite.writeAll_of_mem, LastWrite.group, LastWrite.group_keys
-/
import Mathlib.Logic.Function.Basic
import Mathlib.Data.List.Basic

namespace LastWrite

section Write

variable {κ β : Type} [DecidableEq κ]

/-- One write to the table. -/
def write (table : κ → Option β) (entry : κ × β) : κ → Option β :=
  Function.update table entry.1 (some entry.2)

/-- A table after a list of writes, the last write to a key being the one that counts. -/
def writeAll (table : κ → Option β) (entries : List (κ × β)) : κ → Option β :=
  entries.foldl write table

theorem writeAll_append (table : κ → Option β) (front back : List (κ × β)) :
    writeAll table (front ++ back) = writeAll (writeAll table front) back :=
  List.foldl_append

/-- A key without an entry keeps what the table has. -/
theorem writeAll_of_not_mem {table : κ → Option β} {entries : List (κ × β)} {key : κ}
    (noEntry : ∀ entry ∈ entries, entry.1 ≠ key) : writeAll table entries key = table key := by
  induction entries generalizing table with
  | nil => rfl
  | cons entry rest inductionHypothesis =>
      have later : writeAll (write table entry) rest key = write table entry key :=
        inductionHypothesis fun other member => noEntry other (List.mem_cons_of_mem _ member)
      have here : write table entry key = table key :=
        Function.update_of_ne (noEntry entry List.mem_cons_self).symm _ _
      exact later.trans here

/-- A key with an entry gets the value of one of its entries. -/
theorem writeAll_of_mem {table : κ → Option β} {entries : List (κ × β)} {key : κ}
    (hasEntry : ∃ entry ∈ entries, entry.1 = key) :
    ∃ value, (key, value) ∈ entries ∧ writeAll table entries key = some value := by
  induction entries generalizing table with
  | nil =>
      rcases hasEntry with ⟨entry, member, _⟩
      cases member
  | cons entry rest inductionHypothesis =>
      by_cases inRest : ∃ other ∈ rest, other.1 = key
      · rcases inductionHypothesis inRest with ⟨value, member, written⟩
        exact ⟨value, List.mem_cons_of_mem _ member, written⟩
      · -- the entry is the last one of the key
        push Not at inRest
        have isKey : entry.1 = key := by
          rcases hasEntry with ⟨other, member, sameKey⟩
          rcases List.mem_cons.mp member with rfl | later
          · exact sameKey
          · exact absurd sameKey (inRest other later)
        refine ⟨entry.2, ?_, ?_⟩
        · rw [← isKey]
          exact List.mem_cons_self
        · have kept : writeAll (write table entry) rest key = write table entry key :=
            writeAll_of_not_mem inRest
          apply kept.trans
          rw [write, isKey]
          exact Function.update_self _ _ _

/-- In a table of items whose keys are distinct, an item is found under its key. -/
theorem writeAll_map_of_mem {α : Type} {items : List α} {item : α} {key : α → κ} {value : α → β}
    (member : item ∈ items) (distinct : ∀ other ∈ items, key other = key item → other = item)
    (table : κ → Option β) :
    writeAll table (items.map fun item => (key item, value item)) (key item) = some (value item) := by
  have hasEntry : ∃ entry ∈ items.map (fun item => (key item, value item)), entry.1 = key item :=
    ⟨_, List.mem_map_of_mem member, rfl⟩
  rcases writeAll_of_mem hasEntry with ⟨written, writtenMember, found⟩
  rcases List.mem_map.mp writtenMember with ⟨source, sourceMember, isEntry⟩
  rcases Prod.mk.inj isEntry with ⟨sameKey, rfl⟩
  obtain rfl := distinct source sourceMember sameKey
  exact found

/-- The entries with all occurrences of one of them moved to the end. -/
def preferring (entry : κ × β) [DecidableEq β] (entries : List (κ × β)) : List (κ × β) :=
  (entries.filter fun other => other ≠ entry) ++ entries.filter fun other => other = entry

theorem preferring_perm [DecidableEq β] (entry : κ × β) (entries : List (κ × β)) :
    (preferring entry entries).Perm entries := by
  have split := List.filter_append_perm (fun other => decide (other ≠ entry)) entries
  simpa [preferring] using split

/-- The entry that is moved to the end is the one that is kept. -/
theorem writeAll_preferring [DecidableEq β] {table : κ → Option β} {entry : κ × β} {entries : List (κ × β)}
    (member : entry ∈ entries) : writeAll table (preferring entry entries) entry.1 = some entry.2 := by
  rw [preferring, writeAll_append]
  have atEnd : ∃ other ∈ entries.filter (fun other => other = entry), other.1 = entry.1 :=
    ⟨entry, List.mem_filter.mpr ⟨member, by simp⟩, rfl⟩
  have kept : ∀ start : κ → Option β,
      writeAll start (entries.filter fun other => other = entry) entry.1 = some entry.2 := by
    intro start
    rcases writeAll_of_mem atEnd with ⟨value, valueMember, written⟩
    have isEntry := (List.mem_filter.mp valueMember).2
    rw [decide_eq_true_eq] at isEntry
    rw [written, ← isEntry]
  exact kept _

end Write

section Group

variable {α κ : Type} [DecidableEq κ]

/-- `setdefault(key, []).append(item)`. -/
def append (groups : List (κ × List α)) (key : κ) (item : α) : List (κ × List α) :=
  match groups with
  | [] => [(key, [item])]
  | (other, items) :: rest =>
      if other = key then (other, items ++ [item]) :: rest else (other, items) :: append rest key item

/-- The items in groups by key, the keys in order of their first appearance. -/
def group (items : List α) (key : α → κ) : List (κ × List α) :=
  items.foldl (fun groups item => append groups (key item) item) []

/-- The keys of a list in the order of their first appearance. -/
def firstAppearances (keys : List κ) : List κ :=
  keys.foldl (fun seen key => if key ∈ seen then seen else seen ++ [key]) []

theorem append_keys (groups : List (κ × List α)) (key : κ) (item : α) :
    (append groups key item).map Prod.fst =
      if key ∈ groups.map Prod.fst then groups.map Prod.fst else groups.map Prod.fst ++ [key] := by
  induction groups with
  | nil => rfl
  | cons first rest inductionHypothesis =>
      rcases first with ⟨other, items⟩
      by_cases same : other = key
      · simp [append, same]
      · simp only [append, same, if_false, List.map_cons, List.mem_cons, Ne.symm same, false_or,
          inductionHypothesis]
        split <;> simp

/-- The keys of the groups are those of the items, each once. -/
theorem group_keys (items : List α) (key : α → κ) :
    (group items key).map Prod.fst = firstAppearances (items.map key) := by
  rw [firstAppearances, List.foldl_map, group]
  have step : ∀ groups item,
      (if key item ∈ groups.map Prod.fst then groups.map Prod.fst else groups.map Prod.fst ++ [key item]) =
        (append groups (key item) item).map Prod.fst :=
    fun groups item => (append_keys groups (key item) item).symm
  exact (List.foldl_hom (List.map Prod.fst) step).symm

theorem mem_firstAppearances_aux {keys seen : List κ} {key : κ} :
    key ∈ keys.foldl (fun seen key => if key ∈ seen then seen else seen ++ [key]) seen ↔
      key ∈ seen ∨ key ∈ keys := by
  induction keys generalizing seen with
  | nil => simp
  | cons first rest inductionHypothesis =>
      rw [List.foldl_cons, inductionHypothesis]
      split
      · rename_i already
        constructor
        · rintro (inSeen | inRest)
          · exact .inl inSeen
          · exact .inr (List.mem_cons_of_mem _ inRest)
        · rintro (inSeen | member)
          · exact .inl inSeen
          · rcases List.mem_cons.mp member with rfl | inRest
            · exact .inl already
            · exact .inr inRest
      · simp [or_assoc]

theorem mem_firstAppearances {keys : List κ} {key : κ} : key ∈ firstAppearances keys ↔ key ∈ keys := by
  simp [firstAppearances, mem_firstAppearances_aux]

end Group

end LastWrite
