/-
Module: Zigopt.GridSearch.Coverage
Layer: GridSearch
Purpose: Whether grid suggestions cover the grid. The sampler counts what is in use, so it serves free points
  exactly as long as the free points are the next ones of the numbering, which deletions, manual
  observations and repeated reports can break.
Main exports: IsGridPoint, ServesFree, InOrder, grid_covered_iff
-/
import Mathlib.Data.List.Sigma
import Zigopt.GridSearch.Sampler
import Zigopt.Lib.Grid
import Zigopt.Lib.RoundRobin
import Zigopt.Lib.Trace

namespace Zigopt.GridSearch

open Raising Experiment Assignments

/-! ### The numbering of the grid -/

section Numbering

variable {grid : GridExperiment}

/-- A value of its grid for each parameter, and nothing else. -/
structure IsGridPoint (grid : GridExperiment) (assignments : AssignmentsMap) : Prop where
  onGrid : ∀ parameter ∈ allParameters grid.experiment, ∃ value ∈ parameter.gridValues,
    assignments parameter.name = some value
  onlyParameters : ∀ name, (∀ parameter ∈ allParameters grid.experiment, parameter.name ≠ name) →
    assignments name = none

def gridAxes (grid : GridExperiment) : List (List ℚ) :=
  (allParameters grid.experiment).map (·.gridValues)

theorem gridAxes_nonempty (grid : GridExperiment) : ∀ axis ∈ gridAxes grid, axis ≠ [] := by
  intro axis member
  rcases List.mem_map.mp member with ⟨parameter, isParameter, rfl⟩
  exact grid.hasGrid parameter isParameter

theorem gridAxes_nodup (distinct : DistinctValues grid) : ∀ axis ∈ gridAxes grid, axis.Nodup := by
  intro axis member
  rcases List.mem_map.mp member with ⟨parameter, isParameter, rfl⟩
  exact distinct parameter isParameter

theorem gridSize_eq (grid : GridExperiment) : gridSize grid = Grid.size (gridAxes grid) := by
  rw [gridSize, Grid.size, gridAxes, List.map_map]
  rfl

theorem lookup_eq_none_of_not_mem {names : List String} {values : List ℚ} {name : String}
    (absent : name ∉ names) : (names.zip values).lookup name = none := by
  rw [List.lookup_eq_none_iff]
  intro entry member
  have isName := (List.of_mem_zip member).1
  simp only [bne_iff_ne, ne_eq]
  rintro rfl
  exact absent isName

/-- The loop assigns to the names the values of the point with the number. -/
theorem assignGridValues_eq (parameters : List ExperimentParameter)
    (distinct : (parameters.map (·.name)).Nodup) (index : Nat) (assignments : AssignmentsMap) (name : String) :
    assignGridValues parameters index assignments name =
      (((parameters.map (·.name)).zip (Grid.point (parameters.map (·.gridValues)) index)).lookup name).or
        (assignments name) := by
  induction parameters generalizing index assignments with
  | nil => rfl
  | cons parameter rest inductionHypothesis =>
      rw [List.map_cons, List.nodup_cons] at distinct
      rw [assignGridValues, inductionHypothesis distinct.2, List.map_cons, List.map_cons, Grid.point,
        List.zip_cons_cons]
      by_cases isName : name = parameter.name
      · subst isName
        rw [lookup_eq_none_of_not_mem distinct.1, List.lookup_cons_self]
        exact Function.update_self _ _ _
      · have differ : (name == parameter.name) = false := by simpa using isName
        rw [List.lookup_cons, differ]
        congr 1
        exact Function.update_of_ne isName _ _

theorem getSuggestion_eq (index : Nat) (name : String) :
    getSuggestion grid index name =
      (((allParameters grid.experiment).map (·.name)).zip (Grid.point (gridAxes grid) index)).lookup name := by
  rw [getSuggestion, assignGridValues_eq _ grid.distinctNames]
  exact Option.or_none

theorem lookup_zip_injective {names : List String} (distinct : names.Nodup) {first second : List ℚ}
    (firstLength : first.length = names.length) (secondLength : second.length = names.length)
    (same : ∀ name, (names.zip first).lookup name = (names.zip second).lookup name) : first = second := by
  induction names generalizing first second with
  | nil => rw [List.length_eq_zero_iff.mp firstLength, List.length_eq_zero_iff.mp secondLength]
  | cons name rest inductionHypothesis =>
      rcases List.exists_cons_of_length_eq_add_one firstLength with ⟨value, firstRest, rfl⟩
      rcases List.exists_cons_of_length_eq_add_one secondLength with ⟨other, secondRest, rfl⟩
      rw [List.nodup_cons] at distinct
      have sameHead := same name
      rw [List.zip_cons_cons, List.zip_cons_cons, List.lookup_cons_self, List.lookup_cons_self] at sameHead
      have sameRest : firstRest = secondRest := by
        apply inductionHypothesis distinct.2 (Nat.succ.inj firstLength) (Nat.succ.inj secondLength)
        intro other
        by_cases isName : other = name
        · rw [isName, lookup_eq_none_of_not_mem distinct.1, lookup_eq_none_of_not_mem distinct.1]
        · have differ : (other == name) = false := by simpa using isName
          have sameHere := same other
          rw [List.zip_cons_cons, List.zip_cons_cons, List.lookup_cons, List.lookup_cons, differ] at sameHere
          exact sameHere
      rw [Option.some.inj sameHead, sameRest]

/-- Each name is assigned its value of the point. -/
theorem exists_lookup_zip {parameters : List ExperimentParameter} (distinct : (parameters.map (·.name)).Nodup)
    {values : List ℚ} (onGrid : Grid.OnGrid (parameters.map (·.gridValues)) values) :
    ∀ parameter ∈ parameters, ∃ value ∈ parameter.gridValues,
      ((parameters.map (·.name)).zip values).lookup parameter.name = some value := by
  induction parameters generalizing values with
  | nil => exact fun _ member => absurd member List.not_mem_nil
  | cons first rest inductionHypothesis =>
      cases onGrid with
      | @cons _ value _ others member onRest =>
          rw [List.map_cons, List.nodup_cons] at distinct
          intro parameter isParameter
          rw [List.map_cons, List.zip_cons_cons]
          rcases List.mem_cons.mp isParameter with rfl | inRest
          · exact ⟨value, member, List.lookup_cons_self⟩
          · rcases inductionHypothesis distinct.2 onRest parameter inRest with ⟨other, otherMember, found⟩
            have differ : (parameter.name == first.name) = false := by
              simp only [beq_eq_false_iff_ne, ne_eq]
              intro sameName
              apply distinct.1
              rw [← sameName]
              exact List.mem_map_of_mem inRest
            refine ⟨other, otherMember, ?_⟩
            rw [List.lookup_cons, differ]
            exact found

/-- Every suggestion is a point of the grid. -/
theorem getSuggestion_isGridPoint (grid : GridExperiment) (index : Nat) :
    IsGridPoint grid (getSuggestion grid index) := by
  constructor
  · intro parameter isParameter
    rw [getSuggestion_eq]
    exact exists_lookup_zip grid.distinctNames (Grid.point_onGrid (gridAxes_nonempty grid) index) parameter isParameter
  · intro name noParameter
    rw [getSuggestion_eq]
    apply lookup_eq_none_of_not_mem
    intro member
    rcases List.mem_map.mp member with ⟨parameter, isParameter, isName⟩
    exact noParameter parameter isParameter isName

theorem lookup_zip_map {parameters : List ExperimentParameter} {assignments : AssignmentsMap}
    (assigned : ∀ parameter ∈ parameters, ∃ value, assignments parameter.name = some value) (name : String) :
    ((parameters.map (·.name)).zip (parameters.map fun parameter => (assignments parameter.name).getD 0)).lookup
      name = if name ∈ parameters.map (·.name) then assignments name else none := by
  induction parameters with
  | nil => rfl
  | cons parameter rest inductionHypothesis =>
      have later := inductionHypothesis fun other member => assigned other (List.mem_cons_of_mem _ member)
      rw [List.map_cons, List.map_cons, List.zip_cons_cons, List.lookup_cons]
      by_cases isName : name = parameter.name
      · rcases assigned parameter List.mem_cons_self with ⟨value, isValue⟩
        simp [isName, isValue]
      · have differ : (name == parameter.name) = false := by simpa using isName
        rw [differ]
        simp only [later, List.mem_cons, isName, false_or]

/-- Every point of the grid has a number below their number. -/
theorem exists_getSuggestion_below {assignments : AssignmentsMap} (isPoint : IsGridPoint grid assignments) :
    ∃ index < gridSize grid, getSuggestion grid index = assignments := by
  have onGrid : Grid.OnGrid (gridAxes grid)
      ((allParameters grid.experiment).map fun parameter => (assignments parameter.name).getD 0) := by
    rw [Grid.OnGrid, gridAxes, List.forall₂_map_left_iff, List.forall₂_map_right_iff, List.forall₂_same]
    intro parameter isParameter
    rcases isPoint.onGrid parameter isParameter with ⟨value, member, isValue⟩
    rw [isValue]
    exact member
  rcases Grid.exists_point onGrid with ⟨index, below, isIndex⟩
  refine ⟨index, by rwa [gridSize_eq], ?_⟩
  funext name
  have assigned : ∀ parameter ∈ allParameters grid.experiment, ∃ value, assignments parameter.name = some value := by
    intro parameter isParameter
    rcases isPoint.onGrid parameter isParameter with ⟨value, _, isValue⟩
    exact ⟨value, isValue⟩
  rw [getSuggestion_eq, isIndex, lookup_zip_map assigned]
  split
  · rfl
  · rename_i noParameter
    refine (isPoint.onlyParameters name ?_).symm
    intro parameter isParameter isName
    exact noParameter (isName ▸ List.mem_map_of_mem isParameter)

theorem exists_getSuggestion {assignments : AssignmentsMap} (isPoint : IsGridPoint grid assignments) :
    ∃ index, getSuggestion grid index = assignments := by
  obtain ⟨index, _, isIndex⟩ := exists_getSuggestion_below isPoint
  exact ⟨index, isIndex⟩

/-- Suggestions that take the values of one point are the same. -/
theorem getSuggestion_congr {first second : Nat} (same : Grid.point (gridAxes grid) first = Grid.point (gridAxes grid) second) :
    getSuggestion grid first = getSuggestion grid second := by
  funext name
  rw [getSuggestion_eq, getSuggestion_eq, same]

/-- The numbers of the suggestions repeat after as many as the grid has points. -/
theorem getSuggestion_cycle (distinct : DistinctValues grid) :
    RoundRobin.Cycle (getSuggestion grid) (gridSize grid) := by
  have lengths : ∀ index, (Grid.point (gridAxes grid) index).length =
      ((allParameters grid.experiment).map (·.name)).length := by
    intro index
    rw [← (Grid.point_onGrid (gridAxes_nonempty grid) index).length_eq, gridAxes, List.length_map, List.length_map]
  constructor
  · rw [gridSize_eq]
    exact Grid.size_pos (gridAxes_nonempty grid)
  · intro index
    apply getSuggestion_congr
    rw [gridSize_eq, Grid.point_add_size]
  · intro first firstBelow second secondBelow same
    rw [gridSize_eq] at firstBelow secondBelow
    apply Grid.point_injective (gridAxes_nodup distinct) firstBelow secondBelow
    apply lookup_zip_injective grid.distinctNames (lengths first) (lengths second)
    intro name
    rw [← getSuggestion_eq, ← getSuggestion_eq, same]

end Numbering

/-! ### What is in use -/

section Used

variable {grid : GridExperiment} {state : GridState}

/-- The assignments of the open suggestions and of the observations, each as often as it is there. -/
def usedAssignments (state : GridState) : List AssignmentsMap :=
  state.openSuggestions.map (·.1.assignmentsMap) ++
    (state.observations.filter fun observation => !observation.deleted).map (·.assignmentsMap)

theorem startIndex_eq (state : GridState) : state.startIndex = (usedAssignments state).length := by
  rw [usedAssignments, List.length_append, List.length_map, List.length_map, GridState.startIndex,
    GridState.observationCount, Nat.add_comm]

theorem openSuggestions_addSuggestion (state : GridState) (assignments : AssignmentsMap) :
    (addSuggestion state { assignmentsMap := assignments }).openSuggestions =
      state.openSuggestions ++ [({ assignmentsMap := assignments }, state.suggestions.length)] := by
  have isNew : state.isOpen ({ assignmentsMap := assignments }, state.suggestions.length) = true := by
    simp only [GridState.isOpen, Bool.not_false, Bool.true_and, List.all_eq_true]
    intro observation member
    simp only [ne_eq, decide_eq_true_eq]
    intro isId
    exact Nat.lt_irrefl _ (state.references observation member _ isId)
  have sameOpen : (addSuggestion state { assignmentsMap := assignments }).isOpen = state.isOpen := rfl
  rw [GridState.openSuggestions, sameOpen, addSuggestion, List.zipIdx_append, List.filter_append]
  simp [GridState.openSuggestions, isNew]

/-- A served suggestion is in use. -/
theorem usedAssignments_addSuggestion (state : GridState) (assignments : AssignmentsMap) :
    (assignments :: usedAssignments state).Perm
      (usedAssignments (addSuggestion state { assignmentsMap := assignments })) := by
  rw [usedAssignments, usedAssignments, openSuggestions_addSuggestion, List.map_append, List.append_assoc]
  exact List.perm_middle.symm

/-- An item of a list with distinct keys can be taken out by its key. -/
theorem perm_cons_filter {α : Type} {items : List α} {key : α → Nat} (distinct : (items.map key).Nodup) {item : α}
    (member : item ∈ items) : items.Perm (item :: items.filter fun other => key other ≠ key item) := by
  induction items with
  | nil => cases member
  | cons first rest inductionHypothesis =>
      rw [List.map_cons, List.nodup_cons] at distinct
      rcases List.mem_cons.mp member with rfl | inRest
      · have allKept : (rest.filter fun other => key other ≠ key item) = rest := by
          apply List.filter_eq_self.mpr
          intro other otherMember
          simp only [ne_eq, decide_eq_true_eq]
          intro sameKey
          exact distinct.1 (sameKey ▸ List.mem_map_of_mem otherMember)
        rw [List.filter_cons_of_neg (by simp), allKept]
      · have kept : key first ≠ key item := fun sameKey => distinct.1 (sameKey ▸ List.mem_map_of_mem inRest)
        rw [List.filter_cons_of_pos (by simpa using kept)]
        exact ((inductionHypothesis distinct.2 inRest).cons first).trans (List.Perm.swap _ _ _)

/-- A reported suggestion is not open. -/
theorem openSuggestions_report {id : Nat} {assignments : AssignmentsMap} {known : _} :
    (addObservation state { processedSuggestionId := some id, assignmentsMap := assignments } known).openSuggestions =
      state.openSuggestions.filter fun suggestion => suggestion.2 ≠ id := by
  rw [GridState.openSuggestions, GridState.openSuggestions, List.filter_filter]
  apply List.filter_congr
  intro suggestion _
  simp only [GridState.isOpen, addObservation, List.all_append, List.all_cons, List.all_nil, Bool.and_true]
  have sameId : decide (some id ≠ some suggestion.2) = decide (suggestion.2 ≠ id) := by
    simp only [ne_eq, Option.some.injEq, eq_comm]
  rw [sameId]
  cases suggestion.1.deleted <;> simp [Bool.and_comm]

/-- The observation of an open suggestion takes the place of the suggestion. -/
theorem usedAssignments_report {id : Nat} {suggestion : SuggestionRow} {known : _}
    (isOpen : (suggestion, id) ∈ state.openSuggestions) :
    (usedAssignments state).Perm (usedAssignments (addObservation state
      { processedSuggestionId := some id, assignmentsMap := suggestion.assignmentsMap } known)) := by
  have distinct : (state.openSuggestions.map Prod.snd).Nodup :=
    (List.nodup_zipIdx_map_snd state.suggestions).sublist (List.filter_sublist.map Prod.snd)
  have taken := (perm_cons_filter distinct isOpen).map (·.1.assignmentsMap)
  rw [usedAssignments, usedAssignments, openSuggestions_report, addObservation, List.filter_append, List.map_append]
  apply (taken.append_right _).trans
  rw [List.map_cons, List.cons_append, ← List.append_assoc]
  exact (List.perm_append_singleton _ _).symm

end Used

/-! ### Serving in order -/

section Order

variable {grid : GridExperiment}

/-- The next suggestion is a free point, unless no point is free. -/
def ServesFree (grid : GridExperiment) (state : GridState) : Prop :=
  getSuggestion grid state.startIndex ∈ usedAssignments state →
    ∀ point, IsGridPoint grid point → point ∈ usedAssignments state

/-- If the request is a serve, it serves a free point, unless no point is free. -/
def ServesFreely (grid : GridExperiment) (before : GridState) (operation : Operation) (_ : GridState) : Prop :=
  operation = .serve → ServesFree grid before

/-- The points that are neither open nor observed are those that come next in the numbering. -/
def InOrder (grid : GridExperiment) (state : GridState) : Prop :=
  ∃ left ≤ gridSize grid, ∀ point, IsGridPoint grid point →
    (point ∉ usedAssignments state ↔ ∃ offset < left, point = getSuggestion grid (state.startIndex + offset))

theorem servesFree_iff {state : GridState} :
    ServesFree grid state ↔ RoundRobin.ServesFree (getSuggestion grid) (usedAssignments state) := by
  rw [ServesFree, RoundRobin.ServesFree, startIndex_eq]
  constructor
  · intro servesFree taken index
    exact servesFree taken _ (getSuggestion_isGridPoint grid index)
  · intro servesFree taken point isPoint
    rcases exists_getSuggestion isPoint with ⟨index, rfl⟩
    exact servesFree taken index

theorem inOrder_iff {state : GridState} :
    InOrder grid state ↔ RoundRobin.Aligned (getSuggestion grid) (gridSize grid) (usedAssignments state) := by
  rw [InOrder, RoundRobin.Aligned, startIndex_eq]
  constructor
  · rintro ⟨left, bounded, free⟩
    exact ⟨left, bounded, fun index => free _ (getSuggestion_isGridPoint grid index)⟩
  · rintro ⟨left, bounded, free⟩
    refine ⟨left, bounded, ?_⟩
    intro point isPoint
    rcases exists_getSuggestion isPoint with ⟨index, rfl⟩
    exact free index

/-- A grid operation that is accepted. -/
def Accepted (grid : GridExperiment) (before : GridState) (operation : Operation) (after : GridState) : Prop :=
  perform grid before operation = .ok after

theorem accepted_serve {before after : GridState} :
    Accepted grid before .serve after ↔
      addSuggestion before { assignmentsMap := getSuggestion grid before.startIndex } = after := by
  rw [Accepted, perform, pure_eq_ok]

/-- A served suggestion leaves the points after it. -/
theorem InOrder.serve (distinct : DistinctValues grid) {before after : GridState} (inOrder : InOrder grid before)
    (accepted : Accepted grid before .serve after) : InOrder grid after := by
  rw [← accepted_serve.mp accepted]
  rw [inOrder_iff] at *
  have served := RoundRobin.aligned_cons (getSuggestion_cycle distinct) inOrder
  rw [← startIndex_eq] at served
  exact served.perm (usedAssignments_addSuggestion before _)

/-- The first report of an open suggestion. -/
def ReportsOpen (before : GridState) : Operation → Prop
  | .report suggestionId => ∃ suggestion, (suggestion, suggestionId) ∈ before.openSuggestions
  | _ => False

theorem usedAssignments_reportsOpen {before after : GridState} {operation : Operation}
    (reportsOpen : ReportsOpen before operation) (accepted : Accepted grid before operation after) :
    (usedAssignments before).Perm (usedAssignments after) := by
  cases operation with
  | report suggestionId =>
      rcases reportsOpen with ⟨suggestion, isOpen⟩
      have stored := List.mk_mem_zipIdx_iff_getElem?.mp (List.mem_filter.mp isOpen).1
      rcases List.getElem?_eq_some_iff.mp stored with ⟨inRange, isSuggestion⟩
      have notDeleted : suggestion.deleted = false := by
        have open_ := (List.mem_filter.mp isOpen).2
        simp only [GridState.isOpen, Bool.and_eq_true, Bool.not_eq_true'] at open_
        exact open_.1
      rw [Accepted, perform, reportSuggestion, dif_pos inRange] at accepted
      simp only [isSuggestion, notDeleted, Bool.false_eq_true, if_false, pure_eq_ok] at accepted
      rw [← accepted]
      exact usedAssignments_report isOpen
  | serve => cases reportsOpen
  | deleteSuggestion suggestionId => cases reportsOpen
  | deleteObservation position => cases reportsOpen
  | manual assignmentsJson => cases reportsOpen

/-- Serves and first reports keep the order by themselves; any other request must leave it. -/
def KeepsOrder (grid : GridExperiment) (before : GridState) (operation : Operation) (after : GridState) : Prop :=
  operation = .serve ∨ ReportsOpen before operation ∨ InOrder grid after

/-- An operation that keeps the order leaves the served points in the order of the grid. -/
theorem InOrder.step (distinct : DistinctValues grid) {before after : GridState} {operation : Operation}
    (inOrder : InOrder grid before)
    (accepted : Accepted grid before operation after) (keeps : KeepsOrder grid before operation after) :
    InOrder grid after := by
  rcases keeps with rfl | reportsOpen | stays
  · exact inOrder.serve distinct accepted
  · rw [inOrder_iff] at *
    exact inOrder.perm (usedAssignments_reportsOpen reportsOpen accepted)
  · exact stays

theorem empty_inOrder (distinct : DistinctValues grid) : InOrder grid .empty := by
  rw [inOrder_iff]
  exact RoundRobin.aligned_nil (getSuggestion_cycle distinct)

/-! ### Serving on -/

/-- The state after a number of serves. -/
def afterServing (grid : GridExperiment) : Nat → GridState → GridState
  | 0, state => state
  | times + 1, state =>
      afterServing grid times (addSuggestion state { assignmentsMap := getSuggestion grid state.startIndex })

theorem usedAssignments_afterServing (times : Nat) (state : GridState) :
    (RoundRobin.serveTimes (getSuggestion grid) times (usedAssignments state)).Perm
      (usedAssignments (afterServing grid times state)) := by
  induction times generalizing state with
  | zero => exact List.Perm.refl _
  | succ times inductionHypothesis =>
      have served := usedAssignments_addSuggestion state (getSuggestion grid state.startIndex)
      rw [startIndex_eq] at served
      apply (RoundRobin.serveTimes_perm served times).trans
      rw [← startIndex_eq]
      exact inductionHypothesis _

/-- A run of serves only. -/
def ServesOnly (operations : List (Operation × GridState)) : Prop :=
  ∀ step ∈ operations, step.1 = .serve

/-- Serving a number of times, and once more from a state that does not serve a free point. -/
theorem exists_serving_violation (distinct : DistinctValues grid) {state : GridState} (notInOrder : ¬InOrder grid state) :
    ∃ operations, ServesOnly operations ∧ Trace.Every (Accepted grid) state operations ∧
      ¬Trace.Every (ServesFreely grid) state operations := by
  rw [inOrder_iff] at notInOrder
  rcases RoundRobin.exists_violation (getSuggestion_cycle distinct) notInOrder with ⟨times, violated⟩
  have violatedAfter : ¬ServesFree grid (afterServing grid times state) := by
    rw [servesFree_iff]
    intro servesFree
    exact violated (servesFree.perm (usedAssignments_afterServing times state).symm)
  clear violated notInOrder
  induction times generalizing state with
  | zero =>
      refine ⟨[(.serve, addSuggestion state { assignmentsMap := getSuggestion grid state.startIndex })], ?_, ?_, ?_⟩
      · intro step member
        rw [List.mem_singleton.mp member]
      · exact ⟨accepted_serve.mpr rfl, trivial⟩
      · rintro ⟨here, _⟩
        exact violatedAfter (here rfl)
  | succ times inductionHypothesis =>
      rcases inductionHypothesis violatedAfter with ⟨operations, servesOnly, accepted, violated⟩
      refine ⟨(.serve, _) :: operations, ?_, ⟨accepted_serve.mpr rfl, accepted⟩, ?_⟩
      · intro step member
        rcases List.mem_cons.mp member with rfl | later
        · rfl
        · exact servesOnly step later
      · rintro ⟨_, later⟩
        exact violated later

/-! ### Serving each point once -/

/-- The grid suggestions that a run serves. -/
def servedPoints (grid : GridExperiment) : GridState → List (Operation × GridState) → List AssignmentsMap
  | _, [] => []
  | before, (.serve, after) :: rest => getSuggestion grid before.startIndex :: servedPoints grid after rest
  | _, (_, after) :: rest => servedPoints grid after rest

theorem servedPoints_of_ne_serve {before after : GridState} {operation : Operation}
    {rest : List (Operation × GridState)} (notServe : operation ≠ .serve) :
    servedPoints grid before ((operation, after) :: rest) = servedPoints grid after rest := by
  cases operation with
  | serve => exact absurd rfl notServe
  | report suggestionId => rfl
  | deleteSuggestion suggestionId => rfl
  | deleteObservation position => rfl
  | manual assignmentsJson => rfl

theorem startIndex_serve {before after : GridState} (accepted : Accepted grid before .serve after) :
    after.startIndex = before.startIndex + 1 := by
  rw [← accepted_serve.mp accepted, startIndex_eq, startIndex_eq, ← (usedAssignments_addSuggestion before _).length_eq]
  rfl

/-- If the other requests leave the count as it is, the suggestions have the next numbers in a row. -/
theorem servedPoints_eq {state : GridState} {operations : List (Operation × GridState)}
    (accepted : Trace.Every (Accepted grid) state operations)
    (keepsCount : Trace.Every (fun before operation after =>
      operation = .serve ∨ after.startIndex = before.startIndex) state operations) :
    ∃ count, servedPoints grid state operations =
      (List.range count).map fun offset => getSuggestion grid (state.startIndex + offset) := by
  induction operations generalizing state with
  | nil => exact ⟨0, rfl⟩
  | cons step rest inductionHypothesis =>
      rcases step with ⟨operation, after⟩
      rcases inductionHypothesis accepted.2 keepsCount.2 with ⟨count, servedLater⟩
      rcases keepsCount.1 with rfl | sameCount
      · refine ⟨count + 1, ?_⟩
        rw [servedPoints, servedLater, startIndex_serve accepted.1, List.range_succ_eq_map, List.map_cons,
          List.map_map]
        congr 1
        apply List.map_congr_left
        intro offset _
        rw [Function.comp_apply, Nat.succ_eq_add_one, Nat.add_assoc, Nat.add_comm 1]
      · have notServe : operation ≠ .serve := by
          rintro rfl
          rw [startIndex_serve accepted.1] at sameCount
          omega
        refine ⟨count, ?_⟩
        rw [servedPoints_of_ne_serve notServe, servedLater, sameCount]

/-- As many suggestions in a row as the grid has points are every point once. -/
theorem served_once (distinct : DistinctValues grid) {state : GridState} {operations : List (Operation × GridState)}
    (accepted : Trace.Every (Accepted grid) state operations)
    (keepsCount : Trace.Every (fun before operation after =>
      operation = .serve ∨ after.startIndex = before.startIndex) state operations)
    (asMany : (servedPoints grid state operations).length = gridSize grid) :
    (servedPoints grid state operations).Nodup ∧
      ∀ point, IsGridPoint grid point → point ∈ servedPoints grid state operations := by
  rcases servedPoints_eq accepted keepsCount with ⟨count, served⟩
  rw [served, List.length_map, List.length_range] at asMany
  rw [served, asMany]
  have cycle := getSuggestion_cycle distinct
  constructor
  · apply List.Nodup.map_on _ List.nodup_range
    intro first firstMember second secondMember same
    exact cycle.eq_of_close (List.mem_range.mp firstMember) (List.mem_range.mp secondMember) same
  · intro point isPoint
    rcases exists_getSuggestion isPoint with ⟨index, rfl⟩
    rcases cycle.exists_close state.startIndex index with ⟨offset, below, isOffset⟩
    exact List.mem_map.mpr ⟨offset, List.mem_range.mpr below, isOffset.symm⟩

/-- The states of a run are in order if each of its requests keeps the order. -/
theorem reached_inOrder (distinct : DistinctValues grid) {state : GridState} {operations : List (Operation × GridState)}
    (startInOrder : InOrder grid state) (accepted : Trace.Every (Accepted grid) state operations)
    (keeps : Trace.Every (KeepsOrder grid) state operations) :
    ∀ reached ∈ Trace.reached state operations, InOrder grid reached := by
  have both : Trace.Every (fun before operation after =>
      Accepted grid before operation after ∧ KeepsOrder grid before operation after) state operations :=
    Trace.every_and.mpr ⟨accepted, keeps⟩
  apply Trace.every_invariant _ startInOrder both
  rintro before operation after inOrder ⟨acceptedStep, keepsStep⟩
  exact inOrder.step distinct acceptedStep keepsStep

/-- Serving on from a state that is in order serves free points. -/
theorem servesFree_of_inOrder (distinct : DistinctValues grid) {state : GridState}
    {operations : List (Operation × GridState)}
    (startInOrder : InOrder grid state) (accepted : Trace.Every (Accepted grid) state operations)
    (keeps : Trace.Every (KeepsOrder grid) state operations) :
    Trace.Every (ServesFreely grid) state operations := by
  induction operations generalizing state with
  | nil => trivial
  | cons step rest inductionHypothesis =>
      refine ⟨?_, inductionHypothesis (startInOrder.step distinct accepted.1 keeps.1) accepted.2 keeps.2⟩
      exact fun _ => servesFree_iff.mpr (inOrder_iff.mp startInOrder).servesFree

theorem keepsOrder_of_servesOnly {state : GridState} {operations : List (Operation × GridState)}
    (servesOnly : ServesOnly operations) : Trace.Every (KeepsOrder grid) state operations := by
  induction operations generalizing state with
  | nil => trivial
  | cons step rest inductionHypothesis =>
      exact ⟨.inl (servesOnly step List.mem_cons_self),
        inductionHypothesis fun other member => servesOnly other (List.mem_cons_of_mem _ member)⟩

/-- On a grid of distinct values, a run serves free points only, as long as there are any, and goes on doing so
    however often suggestions are served from its states, exactly if each of its requests keeps the free points the
    next ones of the numbering. If besides serves its requests leave the count as it is, then as many suggestions as
    the grid has points are every point once. -/
theorem grid_covered_iff (distinct : DistinctValues grid) {operations : List (Operation × GridState)}
    (accepted : Trace.Every (Accepted grid) .empty operations) :
    ((Trace.Every (ServesFreely grid) .empty operations ∧
        ∀ state ∈ Trace.reached .empty operations, ∀ serves, ServesOnly serves →
          Trace.Every (Accepted grid) state serves →
            Trace.Every (ServesFreely grid) state serves) ↔
      Trace.Every (KeepsOrder grid) .empty operations) ∧
    (Trace.Every (fun before operation after => operation = .serve ∨ after.startIndex = before.startIndex)
        .empty operations →
      (servedPoints grid .empty operations).length = gridSize grid →
        (servedPoints grid .empty operations).Nodup ∧
          ∀ point, IsGridPoint grid point → point ∈ servedPoints grid .empty operations) := by
  refine ⟨⟨?_, ?_⟩, served_once distinct accepted⟩
  · rintro ⟨-, servesOn⟩
    have inOrder : ∀ state ∈ Trace.reached .empty operations, InOrder grid state := by
      intro state member
      by_contra notInOrder
      rcases exists_serving_violation distinct notInOrder with ⟨serves, servesOnly, acceptedServes, violated⟩
      exact violated (servesOn state member serves servesOnly acceptedServes)
    have everyInOrder : Trace.Every (fun _ _ after => InOrder grid after) .empty operations :=
      Trace.every_state_iff.mpr fun state member => inOrder state (List.mem_cons_of_mem _ member)
    exact everyInOrder.imp fun _ _ _ holds => .inr (.inr holds)
  · intro keeps
    refine ⟨servesFree_of_inOrder distinct (empty_inOrder distinct) accepted keeps, ?_⟩
    intro state member serves servesOnly acceptedServes
    exact servesFree_of_inOrder distinct (reached_inOrder distinct (empty_inOrder distinct) accepted keeps state member)
      acceptedServes (keepsOrder_of_servesOnly servesOnly)

end Order

/-! ### Two runs on three points -/

def gridParameter : ExperimentParameter := { name := "x", paramType := .int, gridValues := [1, 2, 3] }

def threePoints : GridExperiment where
  experiment := { experimentType := .grid, allParametersUnsorted := [gridParameter] }
  noConditionals := rfl
  distinctNames := by decide
  hasGrid := by decide
  unconditional := by decide

theorem threePoints_distinct : DistinctValues threePoints := by
  unfold DistinctValues
  decide

/-- The state after one more suggestion. -/
def served (state : GridState) : GridState :=
  addSuggestion state { assignmentsMap := getSuggestion threePoints state.startIndex }

/-- Two suggestions are served, and the first one is deleted. -/
def oneDeleted : GridState := setSuggestionDeleted (served (served .empty)) 0

/-- Two suggestions are served in a row. -/
def twoServed : List (Operation × GridState) :=
  [(.serve, served .empty), (.serve, served (served .empty))]

/-- The two suggestions are free points. -/
theorem grid_covered_two : Trace.Every (ServesFreely threePoints) .empty twoServed := by
  have accepted : Trace.Every (Accepted threePoints) .empty twoServed :=
    ⟨accepted_serve.mpr rfl, accepted_serve.mpr rfl, trivial⟩
  have keeps : Trace.Every (KeepsOrder threePoints) .empty twoServed := ⟨.inl rfl, .inl rfl, trivial⟩
  exact ((grid_covered_iff threePoints_distinct accepted).1.mpr keeps).1

/-- After the deletion the point with number 1, which is still open, is served a second time, while that with
    number 0 is free. -/
theorem grid_not_covered :
    ∃ operations, Trace.Every (Accepted threePoints) .empty operations ∧
      ¬Trace.Every (ServesFreely threePoints) .empty operations := by
  refine ⟨[(.serve, served .empty), (.serve, served (served .empty)), (.deleteSuggestion 0, oneDeleted),
    (.serve, served oneDeleted)], ?_, ?_⟩
  · exact ⟨accepted_serve.mpr rfl, accepted_serve.mpr rfl, rfl, accepted_serve.mpr rfl, trivial⟩
  · rintro ⟨-, -, -, servesFree, -⟩
    have taken : getSuggestion threePoints oneDeleted.startIndex ∈ usedAssignments oneDeleted :=
      List.mem_cons_self
    have firstInUse := servesFree rfl taken _ (getSuggestion_isGridPoint threePoints 0)
    have isSecond : getSuggestion threePoints 0 = getSuggestion threePoints 1 := List.mem_singleton.mp firstInUse
    have sameValue := congrFun isSecond "x"
    exact absurd sameValue (by decide +kernel)

end Zigopt.GridSearch
