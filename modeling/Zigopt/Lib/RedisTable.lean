/-
Module: Zigopt.Lib.RedisTable
Layer: Lib
Purpose: Hashes and sorted sets of Redis as tables with one entry for each member. A sorted set ranks its members by
  score, and members of one score by themselves; dropping the lowest ranks keeps the members with the highest scores.
Main exports: RedisTable, setAll, addNew, removeAll, ranked, minimum, rangeTo, dropLowest, length_dropLowest, lt_of_dropLowest
-/
import Mathlib.Data.List.AList
import Mathlib.Data.List.Sort
import Mathlib.Data.Prod.Lex

/-- A table of members, each with one value: the value of a hash field, or the score in a sorted set. -/
abbrev RedisTable (κ α : Type) := AList fun _ : κ => α

namespace RedisTable

variable {κ α : Type} [DecidableEq κ]

/-- HSET. -/
def setAll (items : List (κ × α)) (table : RedisTable κ α) : RedisTable κ α :=
  items.foldl (fun table item => table.insert item.1 item.2) table

/-- ZADD NX: the score of a member that is there stays. -/
def addNew (items : List (κ × α)) (table : RedisTable κ α) : RedisTable κ α :=
  items.foldl (fun table item => if item.1 ∈ table then table else table.insert item.1 item.2) table

/-- HDEL, and ZREM. -/
def removeAll (members : List κ) (table : RedisTable κ α) : RedisTable κ α :=
  members.foldl (fun table member => table.erase member) table

theorem mem_setAll {items : List (κ × α)} {table : RedisTable κ α} {member : κ} :
    member ∈ setAll items table ↔ member ∈ table ∨ member ∈ items.map Prod.fst := by
  induction items generalizing table with
  | nil => simp [setAll]
  | cons item rest inductionHypothesis =>
      have step : setAll (item :: rest) table = setAll rest (table.insert item.1 item.2) := rfl
      rw [step, inductionHypothesis, AList.mem_insert, List.map_cons, List.mem_cons]
      tauto

theorem addNew_cons (item : κ × α) (rest : List (κ × α)) (table : RedisTable κ α) :
    addNew (item :: rest) table = addNew rest (if item.1 ∈ table then table else table.insert item.1 item.2) := rfl

theorem mem_addNew {items : List (κ × α)} {table : RedisTable κ α} {member : κ} :
    member ∈ addNew items table ↔ member ∈ table ∨ member ∈ items.map Prod.fst := by
  induction items generalizing table with
  | nil => simp [addNew]
  | cons item rest inductionHypothesis =>
      rw [addNew_cons, inductionHypothesis, List.map_cons, List.mem_cons]
      by_cases there : item.1 ∈ table
      · rw [if_pos there]
        constructor
        · tauto
        · rintro (isOld | rfl | later)
          · exact Or.inl isOld
          · exact Or.inl there
          · exact Or.inr later
      · rw [if_neg there, AList.mem_insert]
        tauto

theorem mem_removeAll {members : List κ} {table : RedisTable κ α} {member : κ} :
    member ∈ removeAll members table ↔ member ∈ table ∧ member ∉ members := by
  induction members generalizing table with
  | nil => simp [removeAll]
  | cons first rest inductionHypothesis =>
      have step : removeAll (first :: rest) table = removeAll rest (table.erase first) := rfl
      rw [step, inductionHypothesis, AList.mem_erase, List.mem_cons]
      tauto

/-- What is not removed keeps its value. -/
theorem lookup_removeAll {members : List κ} {table : RedisTable κ α} {member : κ} (stays : member ∉ members) :
    (removeAll members table).lookup member = table.lookup member := by
  induction members generalizing table with
  | nil => rfl
  | cons first rest inductionHypothesis =>
      have step : removeAll (first :: rest) table = removeAll rest (table.erase first) := rfl
      rw [List.mem_cons, not_or] at stays
      rw [step, inductionHypothesis stays.2, AList.lookup_erase_ne stays.1]

theorem length_removeAll {members : List κ} {table : RedisTable κ α} (distinct : members.Nodup)
    (there : ∀ member ∈ members, member ∈ table) :
    (removeAll members table).keys.length = table.keys.length - members.length := by
  induction members generalizing table with
  | nil => rfl
  | cons first rest inductionHypothesis =>
      have step : removeAll (first :: rest) table = removeAll rest (table.erase first) := rfl
      rw [List.nodup_cons] at distinct
      have restThere : ∀ member ∈ rest, member ∈ table.erase first := by
        intro member isRest
        refine AList.mem_erase.mpr ⟨?_, there member (List.mem_cons_of_mem _ isRest)⟩
        rintro rfl
        exact distinct.1 isRest
      have firstThere := AList.mem_keys.mp (there first List.mem_cons_self)
      rw [step, inductionHypothesis distinct.2 restThere, AList.keys_erase, List.length_erase_of_mem firstThere,
        List.length_cons]
      omega

omit [DecidableEq κ] in
/-- Tables with the same members have as many of them. -/
theorem length_keys_congr {β : Type} {first : RedisTable κ α} {second : RedisTable κ β}
    (same : ∀ member, member ∈ first ↔ member ∈ second) : first.keys.length = second.keys.length := by
  have perm : first.keys.Perm second.keys := by
    apply (List.perm_ext_iff_of_nodup first.keys_nodup second.keys_nodup).mpr
    intro member
    exact AList.mem_keys.symm.trans ((same member).trans AList.mem_keys)
  exact perm.length_eq

/-! ### Ranks -/

section Ranks

variable {σ : Type} [LinearOrder κ] [LinearOrder σ]

/-- The members with their scores, in the order of a sorted set. -/
def ranked (table : RedisTable κ σ) : List (σ ×ₗ κ) :=
  (table.entries.map fun entry => toLex (entry.2, entry.1)).insertionSort (· ≤ ·)

/-- ZRANGE from the first member on; a negative index counts from the end. -/
def rangeTo (stop : ℤ) (table : RedisTable κ σ) : List κ :=
  let members := (ranked table).map fun entry => (ofLex entry).2
  if stop < 0 then members.take (members.length + stop + 1).toNat else members.take (stop + 1).toNat

/-- The members beside those with the highest ranks. -/
def lowest (count : ℕ) (table : RedisTable κ σ) : List κ :=
  rangeTo (-count - 1) table

/-- The table that is left without them. -/
def dropLowest (count : ℕ) (table : RedisTable κ σ) : RedisTable κ σ :=
  removeAll (lowest count table) table

omit [DecidableEq κ] in
theorem length_ranked (table : RedisTable κ σ) : (ranked table).length = table.keys.length := by
  rw [ranked, List.length_insertionSort, List.length_map]
  exact (List.length_map _).symm

theorem mem_ranked {table : RedisTable κ σ} {score : σ} {member : κ} :
    toLex (score, member) ∈ ranked table ↔ table.lookup member = some score := by
  rw [ranked, List.mem_insertionSort, List.mem_map, ← Option.mem_def, AList.mem_lookup_iff]
  constructor
  · rintro ⟨⟨other, otherScore⟩, isEntry, same⟩
    have isPair := Prod.mk.inj (toLex.injective same)
    rw [← isPair.1, ← isPair.2]
    exact isEntry
  · intro isEntry
    exact ⟨⟨member, score⟩, isEntry, rfl⟩

omit [DecidableEq κ] in
theorem nodup_members (table : RedisTable κ σ) : ((ranked table).map fun entry => (ofLex entry).2).Nodup := by
  have perm : ((ranked table).map fun entry => (ofLex entry).2).Perm table.keys := by
    have sorted := (List.perm_insertionSort (· ≤ ·)
      (table.entries.map fun entry => toLex (entry.2, entry.1))).map fun entry => (ofLex entry).2
    rw [List.map_map] at sorted
    exact sorted
  exact perm.nodup_iff.mpr table.keys_nodup

/-- The member that BZPOPMIN takes, with its score. -/
def minimum (table : RedisTable κ σ) : Option (κ × σ) :=
  (ranked table).head?.map fun entry => ((ofLex entry).2, (ofLex entry).1)

theorem lookup_of_minimum {table : RedisTable κ σ} {member : κ} {score : σ}
    (isMinimum : table.minimum = some (member, score)) : table.lookup member = some score := by
  rw [minimum, Option.map_eq_some_iff] at isMinimum
  obtain ⟨entry, isFirst, isPair⟩ := isMinimum
  have entryIs : entry = toLex (score, member) := by
    rw [← (Prod.mk.inj isPair).1, ← (Prod.mk.inj isPair).2]
    rfl
  rw [entryIs] at isFirst
  exact mem_ranked.mp (List.mem_of_head? isFirst)

omit [DecidableEq κ] in
theorem lowest_eq (count : ℕ) (table : RedisTable κ σ) :
    lowest count table =
      ((ranked table).take (table.keys.length - count)).map fun entry => (ofLex entry).2 := by
  have negative : -(count : ℤ) - 1 < 0 := by omega
  rw [lowest, rangeTo, if_pos negative, List.length_map, length_ranked, List.map_take]
  congr 1
  omega

omit [DecidableEq κ] in
theorem lowest_eq_nil {count : ℕ} {table : RedisTable κ σ} :
    lowest count table = [] ↔ table.keys.length ≤ count := by
  rw [lowest_eq, List.map_eq_nil_iff, ← List.length_eq_zero_iff, List.length_take, length_ranked]
  omega

theorem mem_of_mem_lowest {count : ℕ} {table : RedisTable κ σ} {member : κ} (isLowest : member ∈ lowest count table) :
    member ∈ table := by
  rw [lowest_eq] at isLowest
  obtain ⟨entry, isEntry, rfl⟩ := List.mem_map.mp isLowest
  have isRanked : toLex ((ofLex entry).1, (ofLex entry).2) ∈ ranked table := List.mem_of_mem_take isEntry
  exact AList.lookup_isSome.mp (by rw [mem_ranked.mp isRanked]; rfl)

/-- As many are left as are to be kept, or all if there are fewer. -/
theorem length_dropLowest (count : ℕ) (table : RedisTable κ σ) :
    (dropLowest count table).keys.length = min count table.keys.length := by
  have distinct : (lowest count table).Nodup := by
    rw [lowest_eq, List.map_take]
    exact (nodup_members table).sublist (List.take_sublist _ _)
  have lengthIs : (lowest count table).length = table.keys.length - count := by
    rw [lowest_eq, List.length_map, List.length_take, length_ranked]
    omega
  rw [dropLowest, length_removeAll distinct fun _ isLowest => mem_of_mem_lowest isLowest, lengthIs]
  omega

/-- Whoever is left has a higher rank than whoever is dropped. -/
theorem lt_of_dropLowest {count : ℕ} {table : RedisTable κ σ} {kept dropped : κ} {keptScore droppedScore : σ}
    (isKept : (dropLowest count table).lookup kept = some keptScore)
    (isDropped : dropped ∉ dropLowest count table) (wasThere : table.lookup dropped = some droppedScore) :
    toLex (droppedScore, dropped) < toLex (keptScore, kept) := by
  have keptMember : kept ∈ dropLowest count table := AList.lookup_isSome.mp (by rw [isKept]; rfl)
  have keptStays := (mem_removeAll.mp keptMember).2
  have keptRanked : toLex (keptScore, kept) ∈ ranked table := by
    rw [mem_ranked, ← isKept]
    exact (lookup_removeAll keptStays).symm
  have droppedLowest : dropped ∈ lowest count table := by
    by_contra stays
    exact isDropped (mem_removeAll.mpr ⟨AList.lookup_isSome.mp (by rw [wasThere]; rfl), stays⟩)
  rw [lowest_eq] at keptStays droppedLowest
  obtain ⟨entry, isTaken, isMember⟩ := List.mem_map.mp droppedLowest
  have entryRanked : toLex ((ofLex entry).1, (ofLex entry).2) ∈ ranked table := List.mem_of_mem_take isTaken
  have entryIs : entry = toLex (droppedScore, dropped) := by
    rw [mem_ranked, isMember, wasThere, Option.some.injEq] at entryRanked
    rw [← isMember, entryRanked]
    rfl
  have keptLater : toLex (keptScore, kept) ∈ (ranked table).drop (table.keys.length - count) := by
    rw [← List.take_append_drop (table.keys.length - count) (ranked table)] at keptRanked
    rcases List.mem_append.mp keptRanked with earlier | later
    · exact absurd (List.mem_map.mpr ⟨_, earlier, rfl⟩) keptStays
    · exact later
  have sorted : (ranked table).Pairwise (· ≤ ·) := List.pairwise_insertionSort _ _
  rw [← List.take_append_drop (table.keys.length - count) (ranked table), List.pairwise_append] at sorted
  have inOrder := sorted.2.2 entry isTaken _ keptLater
  rw [entryIs] at inOrder isTaken
  apply lt_of_le_of_ne inOrder
  intro same
  rw [same] at isTaken
  exact keptStays (List.mem_map.mpr ⟨_, isTaken, rfl⟩)

end Ranks

end RedisTable
