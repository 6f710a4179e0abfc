/-
Module: Zigopt.Lib.Registry
Layer: Lib
Purpose: Registries that are revised by a list of requested keys. A requested key that is registered is
  kept, any other is registered in its normal form; so a key that is not its own normal form may be
  registered twice.
Main exports: Registry.lastIndexOf, Registry.revised, Registry.revised_nodup_iff, Registry.revised_exact_iff
-/
import Mathlib.Data.List.Nodup
import Mathlib.Data.List.Basic

namespace Registry

variable {κ : Type} [DecidableEq κ]

/-- Where a dictionary that is built from the keys in order leads to: the last position of the key. -/
def lastIndexOf (key : κ) : List κ → Option Nat
  | [] => none
  | other :: rest =>
      match lastIndexOf key rest with
      | some position => some (position + 1)
      | none => if other = key then some 0 else none

theorem lastIndexOf_eq_none {key : κ} {keys : List κ} : lastIndexOf key keys = none ↔ key ∉ keys := by
  induction keys with
  | nil => simp [lastIndexOf]
  | cons other rest inductionHypothesis =>
      unfold lastIndexOf
      cases later : lastIndexOf key rest with
      | none =>
          have notLater := inductionHypothesis.mp later
          by_cases atHead : other = key
          · simp [atHead]
          · simp [atHead, notLater, Ne.symm atHead]
      | some position =>
          have isLater : key ∈ rest := by
            by_contra notLater
            rw [inductionHypothesis.mpr notLater] at later
            cases later
          simp [isLater]

theorem getElem?_of_lastIndexOf {key : κ} {keys : List κ} {position : Nat}
    (found : lastIndexOf key keys = some position) : keys[position]? = some key := by
  induction keys generalizing position with
  | nil => simp [lastIndexOf] at found
  | cons other rest inductionHypothesis =>
      unfold lastIndexOf at found
      cases later : lastIndexOf key rest with
      | some index =>
          rw [later] at found
          cases found
          rw [List.getElem?_cons_succ]
          exact inductionHypothesis later
      | none =>
          rw [later] at found
          by_cases atHead : other = key
          · simp only [atHead, if_true, Option.some.injEq] at found
            simp [← found, atHead]
          · simp [atHead] at found

/-- A dictionary leads from a key to the only position of it. -/
theorem lastIndexOf_of_getElem? {key : κ} {keys : List κ} (distinct : keys.Nodup) {position : Nat}
    (atPosition : keys[position]? = some key) : lastIndexOf key keys = some position := by
  cases found : lastIndexOf key keys with
  | none =>
      exact absurd (List.mem_of_getElem? atPosition) (lastIndexOf_eq_none.mp found)
  | some other =>
      have samePlace := getElem?_of_lastIndexOf found
      rcases List.getElem?_eq_some_iff.mp samePlace with ⟨inRange, _⟩
      rw [(List.getElem?_inj inRange distinct).mp (samePlace.trans atPosition.symm)]

/-- A last position in the front of an extended list is a last position of the front. -/
theorem lastIndexOf_of_append {key : κ} {front back : List κ} {position : Nat}
    (found : lastIndexOf key (front ++ back) = some position) (inFront : position < front.length) :
    lastIndexOf key front = some position := by
  induction front generalizing position with
  | nil => simp at inFront
  | cons other rest inductionHypothesis =>
      rw [List.cons_append, lastIndexOf] at found
      unfold lastIndexOf
      cases later : lastIndexOf key (rest ++ back) with
      | some laterPosition =>
          rw [later] at found
          injection found with same
          have inRest : laterPosition < rest.length := by
            rw [List.length_cons] at inFront
            omega
          rw [inductionHypothesis later inRest]
          exact congrArg some same
      | none =>
          have absent : lastIndexOf key rest = none := by
            rw [lastIndexOf_eq_none] at later ⊢
            exact fun inRest => later (List.mem_append_left _ inRest)
          rw [later] at found
          rw [absent]
          exact found

/-- The last item with a key, and its position. -/
theorem lastIndexOf_of_find {α : Type} {name : α → κ} {items : List α} {key : κ} {item : α}
    (found : (items.reverse.find? fun other => name other = key) = some item) :
    ∃ position, lastIndexOf key (items.map name) = some position ∧ items[position]? = some item := by
  induction items with
  | nil => simp at found
  | cons first rest inductionHypothesis =>
      rw [List.reverse_cons, List.find?_append] at found
      rw [List.map_cons, lastIndexOf]
      cases later : rest.reverse.find? fun other => name other = key with
      | some other =>
          rw [later, Option.some_or] at found
          injection found with same
          subst same
          obtain ⟨position, isLast, atPosition⟩ := inductionHypothesis later
          exact ⟨position + 1, by rw [isLast], atPosition⟩
      | none =>
          rw [later, Option.none_or] at found
          have isFirst : item = first := by simpa using List.mem_of_find?_eq_some found
          subst isFirst
          have named : name item = key := by simpa using List.find?_some found
          have absent : lastIndexOf key (rest.map name) = none := by
            rw [lastIndexOf_eq_none]
            intro inRest
            obtain ⟨other, isOther, otherNamed⟩ := List.mem_map.mp inRest
            have unnamed := List.find?_eq_none.mp later other (List.mem_reverse.mpr isOther)
            simp [otherNamed] at unnamed
          exact ⟨0, by rw [absent, if_pos named], rfl⟩

/-- The keys that are registered after a revision. -/
def revised (normalize : κ → κ) (stored requested : List κ) : List κ :=
  stored ++ (requested.filter (· ∉ stored)).map normalize

theorem mem_revised {normalize : κ → κ} {stored requested : List κ} {key : κ} :
    key ∈ revised normalize stored requested ↔
      key ∈ stored ∨ ∃ raw ∈ requested, raw ∉ stored ∧ normalize raw = key := by
  simp [revised, and_assoc]

/-- The keys stay distinct exactly if no new key has a registered normal form. -/
theorem revised_nodup_iff {normalize : κ → κ} {stored requested : List κ} (distinct : stored.Nodup)
    (newDistinct : ((requested.filter (· ∉ stored)).map normalize).Nodup) :
    (revised normalize stored requested).Nodup ↔
      ∀ raw ∈ requested, normalize raw ∈ stored → raw ∈ stored := by
  unfold revised
  rw [List.nodup_append']
  constructor
  · rintro ⟨_, _, disjoint⟩ raw isRequested registered
    by_contra isNew
    apply disjoint registered
    exact List.mem_map_of_mem (List.mem_filter.mpr ⟨isRequested, by simpa using isNew⟩)
  · intro settled
    refine ⟨distinct, newDistinct, ?_⟩
    intro key registered isNew
    rcases List.mem_map.mp isNew with ⟨raw, member, rfl⟩
    rcases List.mem_filter.mp member with ⟨isRequested, notStored⟩
    exact absurd (settled raw isRequested registered) (by simpa using notStored)

section Exact

variable {normalize : κ → κ} {stored requested reserved : List κ}

theorem revised_of_normal (normal : ∀ raw ∈ requested, normalize raw = raw) :
    revised normalize stored requested = stored ++ requested.filter (· ∉ stored) := by
  unfold revised
  congr 1
  calc (requested.filter (· ∉ stored)).map normalize
      = (requested.filter (· ∉ stored)).map id :=
        List.map_congr_left fun raw member => normal raw (List.mem_of_mem_filter member)
    _ = requested.filter (· ∉ stored) := List.map_id _

/-- If every requested key is its own normal form and not reserved, a revision is exact. -/
theorem exact_of_normal (distinct : stored.Nodup) (apart : ∀ key ∈ stored, key ∉ reserved)
    (requestedDistinct : requested.Nodup) (normal : ∀ raw ∈ requested, normalize raw = raw ∧ raw ∉ reserved) :
    (revised normalize stored requested).Nodup ∧
      (∀ key ∈ revised normalize stored requested, key ∉ reserved) ∧
      ∀ key, (key ∈ revised normalize stored requested ∧ key ∈ requested) ↔ key ∈ requested.map normalize := by
  have same : requested.map normalize = requested :=
    (List.map_congr_left fun raw member => (normal raw member).1).trans (List.map_id _)
  rw [revised_of_normal fun raw member => (normal raw member).1, same]
  refine ⟨?_, ?_, ?_⟩
  · apply List.nodup_append'.mpr
    refine ⟨distinct, requestedDistinct.filter _, ?_⟩
    intro key registered isNew
    exact absurd registered (by simpa using (List.mem_filter.mp isNew).2)
  · intro key member
    rcases List.mem_append.mp member with registered | isNew
    · exact apart key registered
    · exact (normal key (List.mem_of_mem_filter isNew)).2
  · intro key
    by_cases registered : key ∈ stored
    · simp [registered]
    · simp [registered]

/-- A new key of an exact revision is its own normal form: its normal form is active, so it is requested
    itself, and then the revision registers it twice. -/
theorem normal_of_exact (idempotent : ∀ key, normalize (normalize key) = normalize key)
    (distinct : (revised normalize stored requested).Nodup)
    (active : ∀ key, (key ∈ revised normalize stored requested ∧ key ∈ requested) ↔
      key ∈ requested.map normalize) {raw : κ} (isRequested : raw ∈ requested) (isNew : raw ∉ stored) :
    normalize raw = raw := by
  have normalRequested : normalize raw ∈ requested :=
    ((active (normalize raw)).mpr (List.mem_map_of_mem isRequested)).2
  rcases List.nodup_append'.mp distinct with ⟨_, newDistinct, disjoint⟩
  have rawMember : raw ∈ requested.filter (· ∉ stored) := List.mem_filter.mpr ⟨isRequested, by simpa using isNew⟩
  have normalNew : normalize raw ∉ stored := fun registered =>
    disjoint registered (List.mem_map_of_mem rawMember)
  have normalMember : normalize raw ∈ requested.filter (· ∉ stored) :=
    List.mem_filter.mpr ⟨normalRequested, by simpa using normalNew⟩
  exact List.inj_on_of_nodup_map newDistinct normalMember rawMember (idempotent raw)

/-- When a revision is exact, if it marks as active what is registered and literally requested: the keys
    stay distinct and apart from the reserved ones, and the active keys are the requested ones in normal
    form. -/
theorem revised_exact_iff (idempotent : ∀ key, normalize (normalize key) = normalize key)
    (storedNormal : ∀ key ∈ stored, normalize key = key) (distinct : stored.Nodup)
    (apart : ∀ key ∈ stored, key ∉ reserved) (requestedDistinct : requested.Nodup) :
    ((revised normalize stored requested).Nodup ∧ (∀ key ∈ revised normalize stored requested, key ∉ reserved) ∧
      ∀ key, (key ∈ revised normalize stored requested ∧ key ∈ requested) ↔ key ∈ requested.map normalize) ↔
    ∀ raw ∈ requested, normalize raw = raw ∧ raw ∉ reserved := by
  constructor
  · rintro ⟨revisedDistinct, revisedApart, active⟩ raw isRequested
    by_cases registered : raw ∈ stored
    · exact ⟨storedNormal raw registered, apart raw registered⟩
    · have normal := normal_of_exact idempotent revisedDistinct active isRequested registered
      refine ⟨normal, revisedApart raw ?_⟩
      exact mem_revised.mpr (.inr ⟨raw, isRequested, registered, normal⟩)
  · exact exact_of_normal distinct apart requestedDistinct

end Exact

end Registry

namespace Registry

variable {κ ι : Type}

/-- Where assignments were only added and stay one to one, an old and a present one agree in the key
    exactly if they agree in the index: no key changes its index and no index is used again. -/
theorem same_key_iff_same_index {before after : List (κ × ι)} (extended : before ⊆ after)
    (keys : (after.map Prod.fst).Nodup) (indices : (after.map Prod.snd).Nodup) {old present : κ × ι}
    (oldMember : old ∈ before) (presentMember : present ∈ after) :
    old.1 = present.1 ↔ old.2 = present.2 := by
  constructor
  · intro sameKey
    rw [List.inj_on_of_nodup_map keys (extended oldMember) presentMember sameKey]
  · intro sameIndex
    rw [List.inj_on_of_nodup_map indices (extended oldMember) presentMember sameIndex]

end Registry
