/-
Module: Zigopt.Lib.RecursiveMerge
Layer: Lib
Purpose: Recursive merges of trees that are read by paths. A request enters branches, puts leaves and removes what is
  below a path; the tree keeps everything else. A branch is not entered where the tree has a leaf. Requests that
  agree on what is a branch can be merged in any order, and a request that is merged again changes nothing.
Main exports: RecursiveMerge.Node, RecursiveMerge.Change, RecursiveMerge.merge, RecursiveMerge.merge_put,
  RecursiveMerge.merge_remove, RecursiveMerge.merge_untouched, RecursiveMerge.Compatible,
  RecursiveMerge.merge_comm, RecursiveMerge.merge_merge_self, RecursiveMerge.mergeAll_perm
-/
import Mathlib.Data.List.Basic
import Mathlib.Data.List.Perm.Basic
import Mathlib.Data.List.Infix

namespace RecursiveMerge

/-- What a tree holds at a path: more below it, or a value. -/
inductive Node (α : Type) where
  | branch
  | leaf (value : α)
deriving DecidableEq, Repr

/-- What a request says about a path. -/
inductive Change (α : Type) where
  | branch
  | put (value : α)
  | remove
deriving DecidableEq, Repr

/-- A tree, by what is at each path. -/
abbrev Tree (κ α : Type) := List κ → Option (Node α)

/-- The change that a request asks for at each path, if any. -/
abbrev Request (κ α : Type) := List κ → Option (Change α)

/-- The tree below a key. -/
def below {κ β : Type} (key : κ) (tree : List κ → β) : List κ → β := fun path => tree (key :: path)

variable {κ α : Type}

/-- A branch of the request that the tree does not have is created. -/
def mergedHere : Option (Change α) → Option (Node α) → Option (Node α)
  | none, node => node
  | some .branch, node => some (node.getD .branch)
  | some (.put value), _ => some (.leaf value)
  | some .remove, _ => none

/-- The tree after a request, followed along one path; a leaf on the way is in the way of what is below it. -/
def merge (request : Request κ α) (tree : Tree κ α) : Tree κ α
  | [] => mergedHere (request []) (tree [])
  | key :: path =>
      match request [], tree [] with
      | none, _ => tree (key :: path)
      | some .branch, some (.leaf _) => tree (key :: path)
      | some .branch, _ => merge (below key request) (below key tree) path
      | some _, _ => none

variable {request first second : Request κ α} {tree : Tree κ α} {key : κ} {path : List κ} {value : α}

/-! ### One step down -/

theorem merge_nil : merge request tree [] = mergedHere (request []) (tree []) := by
  rw [merge]

theorem merge_cons_of_none (silent : request [] = none) : merge request tree (key :: path) = tree (key :: path) := by
  rw [merge, silent]

theorem merge_cons_of_leaf (enters : request [] = some .branch) (isLeaf : tree [] = some (.leaf value)) :
    merge request tree (key :: path) = tree (key :: path) := by
  rw [merge, enters, isLeaf]

theorem merge_cons_of_branch (enters : request [] = some .branch) (isOpen : ∀ value, tree [] ≠ some (.leaf value)) :
    merge request tree (key :: path) = merge (below key request) (below key tree) path := by
  cases here : tree [] with
  | none => rw [merge, enters, here]
  | some node =>
      cases node with
      | branch => rw [merge, enters, here]
      | leaf value => exact absurd here (isOpen value)

theorem merge_cons_of_put (puts : request [] = some (.put value)) : merge request tree (key :: path) = none := by
  rw [merge, puts]

theorem merge_cons_of_remove (removes : request [] = some .remove) : merge request tree (key :: path) = none := by
  rw [merge, removes]

theorem below_merge_of_branch (enters : request [] = some .branch) (isOpen : ∀ value, tree [] ≠ some (.leaf value)) :
    below key (merge request tree) = merge (below key request) (below key tree) := by
  funext path
  exact merge_cons_of_branch enters isOpen

theorem merge_of_silent (silent : request [] = none) : merge request tree = tree := by
  funext path
  cases path with
  | nil => rw [merge_nil, silent, mergedHere]
  | cons key path => exact merge_cons_of_none silent

/-- A branch that is not there is entered like an empty one. -/
theorem merge_branch_of_empty (enters : request [] = some .branch) {empty : Tree κ α}
    (isBranch : empty [] = some .branch) (isEmpty : ∀ key path, empty (key :: path) = none) :
    merge request empty = merge request fun _ => none := by
  funext path
  cases path with
  | nil => rw [merge_nil, merge_nil, enters, isBranch, mergedHere, mergedHere, Option.getD_some, Option.getD_none]
  | cons key path =>
      rw [merge_cons_of_branch enters (by rw [isBranch]; simp), merge_cons_of_branch enters (by simp)]
      congr 1
      funext inner
      exact isEmpty key inner

/-! ### What a merge does at a path -/

/-- The request enters all branches above the path, and the tree has no leaf there. -/
def Reaches (request : Request κ α) (tree : Tree κ α) (path : List κ) : Prop :=
  ∀ front, front <+: path → front ≠ path →
    request front = some .branch ∧ ∀ value, tree front ≠ some (.leaf value)

theorem Reaches.here (reaches : Reaches request tree (key :: path)) :
    request [] = some .branch ∧ ∀ value, tree [] ≠ some (.leaf value) :=
  reaches [] List.nil_prefix (List.cons_ne_nil key path).symm

/-- What is reached through a key is reached below it. -/
theorem Reaches.below (reaches : Reaches request tree (key :: path)) :
    Reaches (below key request) (below key tree) path := by
  intro front isFront notWhole
  apply reaches (key :: front) (List.cons_prefix_cons.mpr ⟨rfl, isFront⟩)
  intro whole
  exact notWhole (List.cons.inj whole).2

theorem merge_of_reaches (reaches : Reaches request tree path) :
    merge request tree path = mergedHere (request path) (tree path) := by
  induction path generalizing request tree with
  | nil => exact merge_nil
  | cons key path inductionHypothesis =>
      obtain ⟨enters, isOpen⟩ := reaches.here
      rw [merge_cons_of_branch enters isOpen]
      exact inductionHypothesis reaches.below

/-- A value that is put where the request reaches is there afterwards. -/
theorem merge_put (reaches : Reaches request tree path) (puts : request path = some (.put value)) :
    merge request tree path = some (.leaf value) := by
  rw [merge_of_reaches reaches, puts, mergedHere]

/-- What a request removes is gone. -/
theorem merge_remove (reaches : Reaches request tree path) (removes : request path = some .remove) :
    merge request tree path = none := by
  rw [merge_of_reaches reaches, removes, mergedHere]

/-- The request neither puts nor removes the path or anything above it, and does not create it. -/
structure Untouched (request : Request κ α) (tree : Tree κ α) (path : List κ) : Prop where
  above : ∀ front, front <+: path → request front = none ∨ request front = some .branch
  here : request path = some .branch → tree path ≠ none

/-- Where the request says nothing the tree is as before. -/
theorem merge_untouched (untouched : Untouched request tree path) : merge request tree path = tree path := by
  induction path generalizing request tree with
  | nil =>
      rw [merge_nil]
      rcases untouched.above [] List.nil_prefix with silent | enters
      · rw [silent, mergedHere]
      · obtain ⟨node, isNode⟩ := Option.ne_none_iff_exists'.mp (untouched.here enters)
        rw [enters, isNode, mergedHere, Option.getD_some]
  | cons key path inductionHypothesis =>
      rcases untouched.above [] List.nil_prefix with silent | enters
      · exact merge_cons_of_none silent
      · by_cases isLeaf : ∃ value, tree [] = some (.leaf value)
        · obtain ⟨value, isLeaf⟩ := isLeaf
          exact merge_cons_of_leaf enters isLeaf
        · push Not at isLeaf
          rw [merge_cons_of_branch enters isLeaf]
          apply inductionHypothesis
          constructor
          · intro front isFront
            exact untouched.above (key :: front) (List.cons_prefix_cons.mpr ⟨rfl, isFront⟩)
          · exact untouched.here

/-! ### Merging again, and in another order -/

/-- What is still a leaf after a branch was entered was one before. -/
theorem mergedHere_branch_isOpen {node : Option (Node α)} :
    (∀ value, mergedHere (some .branch) node ≠ some (.leaf value)) ↔ ∀ value, node ≠ some (.leaf value) := by
  cases node <;> simp [mergedHere]

/-- A request that is sent twice does what it does once. -/
theorem merge_merge_self (request : Request κ α) (tree : Tree κ α) :
    merge request (merge request tree) = merge request tree := by
  funext path
  induction path generalizing request tree with
  | nil =>
      rw [merge_nil, merge_nil]
      rcases request [] with _ | change
      · rfl
      · cases change <;> rfl
  | cons key path inductionHypothesis =>
      cases here : request [] with
      | none => exact merge_cons_of_none here
      | some change =>
          cases change with
          | put value => rw [merge_cons_of_put here, merge_cons_of_put here]
          | remove => rw [merge_cons_of_remove here, merge_cons_of_remove here]
          | branch =>
              by_cases isLeaf : ∃ value, tree [] = some (.leaf value)
              · obtain ⟨value, isLeaf⟩ := isLeaf
                apply merge_cons_of_leaf here
                rw [merge_nil, here, isLeaf, mergedHere, Option.getD_some]
              · push Not at isLeaf
                have stillOpen : ∀ value, merge request tree [] ≠ some (.leaf value) := by
                  rw [merge_nil, here, mergedHere_branch_isOpen]
                  exact isLeaf
                rw [merge_cons_of_branch here stillOpen, below_merge_of_branch here isLeaf,
                  merge_cons_of_branch here isLeaf]
                exact inductionHypothesis (below key request) (below key tree)

/-- Where both requests say something, both enter a branch. -/
def Compatible (first second : Request κ α) : Prop :=
  ∀ path one other, first path = some one → second path = some other → one = .branch ∧ other = .branch

/-- Compatibility is symmetric. -/
theorem Compatible.symm (compatible : Compatible first second) : Compatible second first :=
  fun path one other isOne isOther => (compatible path other one isOther isOne).symm

/-- Compatible requests are compatible below every key. -/
theorem Compatible.below (compatible : Compatible first second) (key : κ) :
    Compatible (below key first) (below key second) :=
  fun path => compatible (key :: path)

/-- What a merge leaves below a branch that both requests enter. -/
theorem merge_merge_cons (isFirst : first [] = some .branch) (isSecond : second [] = some .branch)
    (isOpen : ∀ value, tree [] ≠ some (.leaf value)) :
    merge first (merge second tree) (key :: path) =
      merge (below key first) (merge (below key second) (below key tree)) path := by
  have stillOpen : ∀ value, merge second tree [] ≠ some (.leaf value) := by
    rw [merge_nil, isSecond, mergedHere_branch_isOpen]
    exact isOpen
  rw [merge_cons_of_branch isFirst stillOpen, below_merge_of_branch isSecond isOpen]

/-- A leaf is kept by both. -/
theorem merge_merge_cons_of_leaf (isFirst : first [] = some .branch) (isSecond : second [] = some .branch)
    (isLeaf : tree [] = some (.leaf value)) :
    merge first (merge second tree) (key :: path) = tree (key :: path) := by
  have stillLeaf : merge second tree [] = some (.leaf value) := by
    rw [merge_nil, isSecond, isLeaf, mergedHere, Option.getD_some]
  rw [merge_cons_of_leaf isFirst stillLeaf, merge_cons_of_leaf isSecond isLeaf]

/-- Compatible requests may arrive in either order. -/
theorem merge_comm (compatible : Compatible first second) (tree : Tree κ α) :
    merge first (merge second tree) = merge second (merge first tree) := by
  funext path
  induction path generalizing first second tree with
  | nil =>
      rw [merge_nil, merge_nil, merge_nil, merge_nil]
      cases isFirst : first [] with
      | none => rfl
      | some one =>
          cases isSecond : second [] with
          | none => rfl
          | some other =>
              obtain ⟨rfl, rfl⟩ := compatible [] one other isFirst isSecond
              rfl
  | cons key path inductionHypothesis =>
      cases isFirst : first [] with
      | none => rw [merge_of_silent isFirst, merge_of_silent isFirst]
      | some one =>
          cases isSecond : second [] with
          | none => rw [merge_of_silent isSecond, merge_of_silent isSecond]
          | some other =>
              obtain ⟨rfl, rfl⟩ := compatible [] one other isFirst isSecond
              by_cases isLeaf : ∃ value, tree [] = some (.leaf value)
              · obtain ⟨value, isLeaf⟩ := isLeaf
                rw [merge_merge_cons_of_leaf isFirst isSecond isLeaf, merge_merge_cons_of_leaf isSecond isFirst isLeaf]
              · push Not at isLeaf
                rw [merge_merge_cons isFirst isSecond isLeaf, merge_merge_cons isSecond isFirst isLeaf]
                exact inductionHypothesis (compatible.below key) (below key tree)

/-! ### Several requests -/

def mergeAll (tree : Tree κ α) (requests : List (Request κ α)) : Tree κ α :=
  requests.foldl (fun merged request => merge request merged) tree

/-- Requests that are compatible in pairs may arrive in any order. -/
theorem mergeAll_perm {requests others : List (Request κ α)} (compatible : requests.Pairwise Compatible)
    (sameRequests : requests.Perm others) (tree : Tree κ α) : mergeAll tree requests = mergeAll tree others := by
  induction sameRequests generalizing tree with
  | nil => rfl
  | cons request _ inductionHypothesis => exact inductionHypothesis compatible.of_cons (merge request tree)
  | swap second first rest =>
      rw [List.pairwise_cons] at compatible
      have apart : Compatible first second := compatible.1 second List.mem_cons_self
      rw [mergeAll, mergeAll, List.foldl_cons, List.foldl_cons, List.foldl_cons, List.foldl_cons,
        merge_comm apart.symm tree]
  | trans early _ firstHypothesis secondHypothesis =>
      have stillCompatible := compatible.perm early Compatible.symm
      exact (firstHypothesis compatible tree).trans (secondHypothesis stillCompatible tree)

theorem mergeAll_comm {requests : List (Request κ α)} (compatible : ∀ other ∈ requests, Compatible request other)
    (tree : Tree κ α) : merge request (mergeAll tree requests) = mergeAll (merge request tree) requests := by
  induction requests generalizing tree with
  | nil => rfl
  | cons other rest inductionHypothesis =>
      rw [List.forall_mem_cons] at compatible
      have later := inductionHypothesis compatible.2 (merge other tree)
      rw [merge_comm compatible.1 tree] at later
      exact later

/-- A path that no request touches. -/
theorem mergeAll_untouched {requests : List (Request κ α)}
    (untouched : ∀ request ∈ requests, ∀ front, front <+: path → request front = none ∨ request front = some .branch)
    (here : tree path ≠ none) : mergeAll tree requests path = tree path := by
  induction requests generalizing tree with
  | nil => rfl
  | cons request rest inductionHypothesis =>
      rw [List.forall_mem_cons] at untouched
      have kept : merge request tree path = tree path := merge_untouched ⟨untouched.1, fun _ => here⟩
      have stillHere : merge request tree path ≠ none := by
        rw [kept]
        exact here
      exact (inductionHypothesis untouched.2 stillHere).trans kept

end RecursiveMerge
