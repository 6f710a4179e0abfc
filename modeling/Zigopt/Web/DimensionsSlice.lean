/-
Module: Zigopt.Web.DimensionsSlice
Layer: Web
Purpose: The part of a dashboard's state that says which runs are selected and hovered over
  (`pages/project/state/dimensions_slice.js`), each by index and by id, and the actions that change it or make the index
  maps anew. Nothing brings the selection in line with new maps: it stays right in just those runs of the dashboard in
  which no action moves a selected run or selects one that is not shown.
Main exports: DimensionsState, DimensionsAction, dispatch, SelectionAgrees, KeepsSelection, selection_agrees_iff
-/
import Mathlib.Data.List.Induction
import Zigopt.Lib.Trace
import Zigopt.Web.DimensionsFaithful

namespace Zigopt.Web

/-! ### The state and the actions -/

/-- Indexes and ids are null or undefined where there is none. -/
structure HoverInfo where
  runIndex : Option ℕ := none
  runId : Option String := none
  checkpointIndex : Option ℕ := none

structure FilterModel where
  key : Option String
  value : Value
deriving DecidableEq, Repr

/-- The table that `tableApi` talks to is outside the state; the state has whether it is set. -/
structure DimensionsState where
  allRuns : Option (List Value) := none
  definedFields : Option (List Field) := none
  dimensions : Option (String → Option Dimension) := none
  filterModel : Option FilterModel := none
  hoverInfo : HoverInfo := {}
  idIndexMap : String → Option ℕ := fun _ => none
  indexIdMap : ℕ → Option String := fun _ => none
  runs : Option (List Value) := none
  selectedIds : List (Option String) := []
  selectedIndexes : List (Option ℕ) := []
  tableApi : Bool := false
  tableFiltered : Bool := false

/-- The actions, with the rows that the table shows after its own filter where they are asked for. -/
inductive DimensionsAction where
  | setSelectedIndexes (payload : List ℕ)
  | setSelectedIds (payload : List String)
  | setHoverInfo (payload : HoverInfo)
  | setTableApi
  | toggleDimensionsToFiltered (rows : List Value)
  | updateFiltered (rows : List Value)
  | getRunsSuccess (runs : List Value) (definedFields : List Field)
  | changeFilterModel (payload : Option FilterModel)

section Reducers

variable (realm : Realm) (castPath : String → List String)

def setHoverInfo (state : DimensionsState) (payload : HoverInfo) : DimensionsState :=
  match payload.runId, payload.runIndex with
  | some runId, _ => { state with hoverInfo := { payload with runIndex := state.idIndexMap runId } }
  | none, some runIndex => { state with hoverInfo := { payload with runId := state.indexIdMap runIndex } }
  | none, none => { state with hoverInfo := payload }

def setSelectedIndexes (state : DimensionsState) (payload : List ℕ) : DimensionsState :=
  { state with
    selectedIndexes := payload.map some
    selectedIds := payload.map state.indexIdMap }

def setSelectedIds (state : DimensionsState) (payload : List String) : DimensionsState :=
  { state with
    selectedIds := payload.map some
    selectedIndexes := payload.map state.idIndexMap }

/-- The dimensions and the maps are made anew from these runs. -/
def useRuns (state : DimensionsState) (runs : List Value) : Except JsError DimensionsState := do
  let made ← createDimensionsFromRuns realm castPath (state.definedFields.getD []) runs
  pure { state with
    dimensions := some made.dimensions
    idIndexMap := made.idIndexMap
    indexIdMap := made.indexIdMap }

def toggleDimensionsToFiltered (state : DimensionsState) (rows : List Value) : Except JsError DimensionsState :=
  let toggled := { state with tableFiltered := !state.tableFiltered }
  if toggled.tableApi = false then
    .ok toggled
  else
    useRuns realm castPath toggled (if toggled.tableFiltered then rows else toggled.runs.getD [])

def updateFiltered (state : DimensionsState) (rows : List Value) : Except JsError DimensionsState :=
  if state.tableFiltered then
    if state.tableApi then useRuns realm castPath state rows else .error .typeError
  else
    .ok state

def getRunsSuccess (state : DimensionsState) (runs : List Value) (definedFields : List Field) : DimensionsState :=
  { state with
    definedFields := some definedFields
    allRuns := some runs }

/-- `run.model && run.model.type === value`. -/
def hasModelType (value run : Value) : Bool :=
  let model := (realm.property run "model").getD .undefined
  model.isTruthy && (realm.property model "type").getD .undefined = value

def hasExperiment (value run : Value) : Bool :=
  (realm.property run "experiment").getD .undefined = value

/-- The runs that the filter of a dashboard leaves; it throws for a key that it does not know. -/
def filteredRuns (state : DimensionsState) (payload : Option FilterModel) : Except JsError (Option (List Value)) :=
  match payload.bind (·.key) with
  | none => .ok state.allRuns
  | some "" => .ok state.allRuns
  | some "model.type" =>
      .ok (some ((state.allRuns.getD []).filter (hasModelType realm ((payload.map (·.value)).getD .undefined))))
  | some "experiment" =>
      .ok (some ((state.allRuns.getD []).filter (hasExperiment realm ((payload.map (·.value)).getD .undefined))))
  | some _ => .error .typeError

def changeFilterModel (state : DimensionsState) (payload : Option FilterModel) : Except JsError DimensionsState := do
  let runs ← filteredRuns realm state payload
  let next ← useRuns realm castPath { state with runs := runs } (runs.getD [])
  pure { next with filterModel := payload }

def reducer (state : DimensionsState) : DimensionsAction → Except JsError DimensionsState
  | .setSelectedIndexes payload => .ok (setSelectedIndexes state payload)
  | .setSelectedIds payload => .ok (setSelectedIds state payload)
  | .setHoverInfo payload => .ok (setHoverInfo state payload)
  | .setTableApi => .ok { state with tableApi := true }
  | .toggleDimensionsToFiltered rows => toggleDimensionsToFiltered realm castPath state rows
  | .updateFiltered rows => updateFiltered realm castPath state rows
  | .getRunsSuccess runs definedFields => .ok (getRunsSuccess state runs definedFields)
  | .changeFilterModel payload => changeFilterModel realm castPath state payload

/-- A reducer that throws leaves the state as it is. -/
def dispatch (state : DimensionsState) (action : DimensionsAction) : DimensionsState :=
  match reducer realm castPath state action with
  | .ok next => next
  | .error _ => state

end Reducers

/-! ### Ids and indexes that agree -/

/-- The id and the index are those of one run that the maps know. -/
def SameRun (state : DimensionsState) (id : Option String) (index : Option ℕ) : Prop :=
  ∃ run position, id = some run ∧ index = some position ∧ state.idIndexMap run = some position ∧
    state.indexIdMap position = some run

/-- Ids and indices of the selected and the hovered runs name the same runs. -/
structure SelectionAgrees (state : DimensionsState) : Prop where
  selected : List.Forall₂ (SameRun state) state.selectedIds state.selectedIndexes
  hovered : state.hoverInfo.runIndex = none ∧ state.hoverInfo.runId = none ∨
    SameRun state state.hoverInfo.runId state.hoverInfo.runIndex

/-- Selected and hovered runs are among these runs, at the index they had. -/
def Stay (realm : Realm) (state : DimensionsState) (runs : List Value) : Prop :=
  (∀ pair ∈ state.selectedIds.zip state.selectedIndexes, ∀ run, pair.1 = some run →
    idIndexMapOf (runs.map (runId realm)) run = pair.2) ∧
  ∀ run, state.hoverInfo.runId = some run → idIndexMapOf (runs.map (runId realm)) run = state.hoverInfo.runIndex

/-- What is selected or hovered over is shown, and what a filter leaves does not move what is. -/
def KeepsSelection (realm : Realm) (before : DimensionsState) (action : DimensionsAction) (_after : DimensionsState) :
    Prop :=
  match action with
  | .setSelectedIndexes payload => ∀ index ∈ payload, (before.indexIdMap index).isSome = true
  | .setSelectedIds payload => ∀ id ∈ payload, (before.idIndexMap id).isSome = true
  | .setHoverInfo payload =>
      (∀ id, payload.runId = some id → (before.idIndexMap id).isSome = true) ∧
        (payload.runId = none → ∀ index, payload.runIndex = some index → (before.indexIdMap index).isSome = true)
  | .setTableApi => True
  | .toggleDimensionsToFiltered rows => before.tableApi = true →
      Stay realm before (if before.tableFiltered then before.runs.getD [] else rows)
  | .updateFiltered rows => before.tableFiltered = true → before.tableApi = true → Stay realm before rows
  | .getRunsSuccess _ _ => True
  | .changeFilterModel payload => ∀ runs, filteredRuns realm before payload = .ok runs →
      Stay realm before (runs.getD [])

/-! ### The maps -/

theorem idIndexMapOf_snoc (ids : List String) (last : String) :
    idIndexMapOf (ids ++ [last]) = Function.update (idIndexMapOf ids) last (some ids.length) := by
  rw [idIndexMapOf, List.zipIdx_append, List.foldl_append]
  simp [idIndexMapOf]

/-- A run is at the index that the map has for it. -/
theorem getElem_of_idIndexMapOf {ids : List String} {id : String} {index : ℕ}
    (found : idIndexMapOf ids id = some index) : ids[index]? = some id := by
  induction ids using List.reverseRecOn with
  | nil => cases found
  | append_singleton ids last inductionHypothesis =>
      rw [idIndexMapOf_snoc] at found
      by_cases isLast : id = last
      · rw [isLast, Function.update_self, Option.some.injEq] at found
        rw [← found, isLast, List.getElem?_append_right le_rfl]
        simp
      · rw [Function.update_of_ne isLast] at found
        have earlier := inductionHypothesis found
        obtain ⟨inside, _⟩ := List.getElem?_eq_some_iff.mp earlier
        rw [List.getElem?_append_left inside]
        exact earlier

theorem indexIdMapOf_iff {ids : List String} {id : String} {index : ℕ} :
    indexIdMapOf ids index = some id ↔ idIndexMapOf ids id = some index := by
  constructor
  · intro found
    simpa using List.find?_some found
  · intro found
    have there := getElem_of_idIndexMapOf found
    have isSome : (indexIdMapOf ids index).isSome = true := by
      rw [indexIdMapOf, List.find?_isSome]
      exact ⟨id, List.mem_of_getElem? there, decide_eq_true found⟩
    obtain ⟨other, isOther⟩ := Option.isSome_iff_exists.mp isSome
    have otherFound : idIndexMapOf ids other = some index := by simpa using List.find?_some isOther
    rw [isOther, ← there, getElem_of_idIndexMapOf otherFound]

/-! ### Steps -/

section Steps

variable {realm : Realm} {castPath : String → List String} {before after : DimensionsState}

/-- The maps of a state are those of some runs. -/
def HasMaps (state : DimensionsState) : Prop :=
  ∃ ids, state.idIndexMap = idIndexMapOf ids ∧ state.indexIdMap = indexIdMapOf ids

theorem HasMaps.inverse (maps : HasMaps before) {id : String} {index : ℕ} :
    before.indexIdMap index = some id ↔ before.idIndexMap id = some index := by
  obtain ⟨ids, forward, backward⟩ := maps
  rw [forward, backward]
  exact indexIdMapOf_iff

theorem HasMaps.sameRun_iff (maps : HasMaps before) {run : String} {position : ℕ} :
    SameRun before (some run) (some position) ↔ before.idIndexMap run = some position := by
  constructor
  · rintro ⟨_, _, isRun, isPosition, found, _⟩
    obtain rfl := Option.some.inj isRun
    obtain rfl := Option.some.inj isPosition
    exact found
  · intro found
    exact ⟨run, position, rfl, rfl, found, maps.inverse.mpr found⟩

/-- What is selected and hovered over is as it was. -/
structure SameSelection (before after : DimensionsState) : Prop where
  ids : after.selectedIds = before.selectedIds
  indexes : after.selectedIndexes = before.selectedIndexes
  hover : after.hoverInfo = before.hoverInfo

/-- The maps are those of these runs. -/
structure MapsOf (realm : Realm) (runs : List Value) (state : DimensionsState) : Prop where
  forward : state.idIndexMap = idIndexMapOf (runs.map (runId realm))
  backward : state.indexIdMap = indexIdMapOf (runs.map (runId realm))

theorem MapsOf.hasMaps {runs : List Value} (maps : MapsOf realm runs after) : HasMaps after :=
  ⟨_, maps.forward, maps.backward⟩

/-- The selection is right with new maps exactly if the runs stay. -/
theorem agrees_iff_stay (agrees : SelectionAgrees before) {runs : List Value} (same : SameSelection before after)
    (made : MapsOf realm runs after) : SelectionAgrees after ↔ Stay realm before runs := by
  have maps := made.hasMaps
  have pairIff : ∀ id index, SameRun before id index →
      (SameRun after id index ↔ ∀ run, id = some run → idIndexMapOf (runs.map (runId realm)) run = index) := by
    rintro _ _ ⟨run, position, rfl, rfl, _⟩
    rw [maps.sameRun_iff, made.forward]
    constructor
    · intro found other isOther
      rw [← Option.some.inj isOther]
      exact found
    · intro found
      exact found run rfl
  constructor
  · intro agreesAfter
    have selected := agreesAfter.selected
    rw [same.ids, same.indexes] at selected
    constructor
    · rintro ⟨id, index⟩ isPair
      exact (pairIff id index ((List.forall₂_iff_zip.mp agrees.selected).2 isPair)).mp
        ((List.forall₂_iff_zip.mp selected).2 isPair)
    · intro run isRun
      rcases agrees.hovered with ⟨_, noId⟩ | sameRun
      · rw [noId] at isRun
        cases isRun
      · have hovered := agreesAfter.hovered
        rw [same.hover] at hovered
        rcases hovered with ⟨_, noId⟩ | sameAfter
        · rw [noId] at isRun
          cases isRun
        · exact (pairIff _ _ sameRun).mp sameAfter run isRun
  · rintro ⟨selected, hovered⟩
    constructor
    · rw [same.ids, same.indexes, List.forall₂_iff_zip]
      refine ⟨agrees.selected.length_eq, ?_⟩
      intro id index isPair
      exact (pairIff id index ((List.forall₂_iff_zip.mp agrees.selected).2 isPair)).mpr (selected _ isPair)
    · rw [same.hover]
      rcases agrees.hovered with none | sameRun
      · exact Or.inl none
      · exact Or.inr ((pairIff _ _ sameRun).mpr hovered)

theorem useRuns_ok (realm : Realm) (castPath : String → List String) (state : DimensionsState) (runs : List Value) :
    ∃ next, useRuns realm castPath state runs = .ok next ∧ SameSelection state next ∧ MapsOf realm runs next := by
  obtain ⟨dimensions, created⟩ := createDimensionsFromRuns_maps realm castPath (state.definedFields.getD []) runs
  refine ⟨{ state with
    dimensions := some dimensions
    idIndexMap := idIndexMapOf (runs.map (runId realm))
    indexIdMap := indexIdMapOf (runs.map (runId realm)) }, ?_, ⟨rfl, rfl, rfl⟩, ⟨rfl, rfl⟩⟩
  rw [useRuns, created]
  rfl

/-- An action leaves selection and maps alone, or makes the maps anew from these runs. -/
def Rebuilds (realm : Realm) (before after : DimensionsState) (runs : List Value) : Prop :=
  SameSelection before after ∧ MapsOf realm runs after

def LeavesAlone (before after : DimensionsState) : Prop :=
  SameSelection before after ∧ after.idIndexMap = before.idIndexMap ∧ after.indexIdMap = before.indexIdMap

/-- An action that leaves the selection alone keeps it in agreement. -/
theorem LeavesAlone.agrees (alone : LeavesAlone before after) (agrees : SelectionAgrees before) :
    SelectionAgrees after := by
  obtain ⟨same, forward, backward⟩ := alone
  have sameRun : SameRun after = SameRun before := by
    funext id index
    rw [SameRun, SameRun, forward, backward]
  constructor
  · rw [same.ids, same.indexes, sameRun]
    exact agrees.selected
  · rw [same.hover, sameRun]
    exact agrees.hovered

/-- An action that leaves the selection alone keeps the index maps. -/
theorem LeavesAlone.maps (alone : LeavesAlone before after) (maps : HasMaps before) : HasMaps after := by
  obtain ⟨ids, forward, backward⟩ := maps
  exact ⟨ids, alone.2.1.trans forward, alone.2.2.trans backward⟩

theorem toggle_cases (rows : List Value) :
    (before.tableApi = false ∧
      LeavesAlone before (dispatch realm castPath before (.toggleDimensionsToFiltered rows))) ∨
    (before.tableApi = true ∧
      Rebuilds realm before (dispatch realm castPath before (.toggleDimensionsToFiltered rows))
        (if before.tableFiltered then before.runs.getD [] else rows)) := by
  unfold dispatch reducer toggleDimensionsToFiltered
  dsimp only
  cases hasTable : before.tableApi with
  | false =>
      rw [if_pos rfl]
      exact Or.inl ⟨rfl, ⟨rfl, rfl, rfl⟩, rfl, rfl⟩
  | true =>
      right
      rw [if_neg (by decide)]
      have sameRuns : (if (!before.tableFiltered) = true then rows else before.runs.getD []) =
          if before.tableFiltered then before.runs.getD [] else rows := by
        cases before.tableFiltered with
        | false => rfl
        | true => rfl
      rw [sameRuns]
      obtain ⟨next, used, same, maps⟩ := useRuns_ok realm castPath
        { before with tableApi := true, tableFiltered := !before.tableFiltered }
        (if before.tableFiltered then before.runs.getD [] else rows)
      rw [used]
      exact ⟨rfl, ⟨same.ids, same.indexes, same.hover⟩, maps⟩

theorem updateFiltered_cases (rows : List Value) :
    (¬(before.tableFiltered = true ∧ before.tableApi = true) ∧
      LeavesAlone before (dispatch realm castPath before (.updateFiltered rows))) ∨
    (before.tableFiltered = true ∧ before.tableApi = true ∧
      Rebuilds realm before (dispatch realm castPath before (.updateFiltered rows)) rows) := by
  unfold dispatch reducer updateFiltered
  dsimp only
  cases before.tableFiltered with
  | false => exact Or.inl ⟨fun both => Bool.noConfusion both.1, ⟨rfl, rfl, rfl⟩, rfl, rfl⟩
  | true =>
      cases before.tableApi with
      | false => exact Or.inl ⟨fun both => Bool.noConfusion both.2, ⟨rfl, rfl, rfl⟩, rfl, rfl⟩
      | true =>
          obtain ⟨next, used, same, maps⟩ := useRuns_ok realm castPath before rows
          rw [if_pos rfl, if_pos rfl, used]
          exact Or.inr ⟨rfl, rfl, same, maps⟩

theorem changeFilterModel_cases (payload : Option FilterModel) :
    ((∀ runs, filteredRuns realm before payload ≠ .ok runs) ∧
      LeavesAlone before (dispatch realm castPath before (.changeFilterModel payload))) ∨
    ∃ runs, filteredRuns realm before payload = .ok runs ∧
      Rebuilds realm before (dispatch realm castPath before (.changeFilterModel payload)) (runs.getD []) := by
  unfold dispatch reducer changeFilterModel
  cases filtered : filteredRuns realm before payload with
  | error failure =>
      left
      dsimp only
      rw [filtered, Raising.error_bind]
      exact ⟨fun _ impossible => (nomatch impossible), ⟨rfl, rfl, rfl⟩, rfl, rfl⟩
  | ok runs =>
      obtain ⟨next, used, same, maps⟩ := useRuns_ok realm castPath { before with runs := runs } (runs.getD [])
      right
      refine ⟨runs, rfl, ?_⟩
      dsimp only
      rw [filtered, Raising.ok_bind, used, Raising.ok_bind]
      exact ⟨⟨same.ids, same.indexes, same.hover⟩, ⟨maps.forward, maps.backward⟩⟩

theorem selected_iff {α : Type} {payload : List α} {ids : α → Option String} {indexes : α → Option ℕ}
    {condition : α → Prop} (each : ∀ item ∈ payload, SameRun after (ids item) (indexes item) ↔ condition item) :
    List.Forall₂ (SameRun after) (payload.map ids) (payload.map indexes) ↔ ∀ item ∈ payload, condition item := by
  rw [List.forall₂_map_left_iff, List.forall₂_map_right_iff, List.forall₂_same]
  exact forall₂_congr each

theorem HasMaps.sameRun_of_index (maps : HasMaps before) (index : ℕ) :
    SameRun before (before.indexIdMap index) (some index) ↔ (before.indexIdMap index).isSome = true := by
  cases found : before.indexIdMap index with
  | none => exact iff_of_false (fun same => nomatch same) Bool.false_ne_true
  | some id => exact iff_of_true (maps.sameRun_iff.mpr (maps.inverse.mp found)) rfl

theorem HasMaps.sameRun_of_id (maps : HasMaps before) (id : String) :
    SameRun before (some id) (before.idIndexMap id) ↔ (before.idIndexMap id).isSome = true := by
  cases found : before.idIndexMap id with
  | none => exact iff_of_false (fun same => nomatch same) Bool.false_ne_true
  | some index => exact iff_of_true (maps.sameRun_iff.mpr found) rfl

theorem setHoverInfo_iff (agrees : SelectionAgrees before) (maps : HasMaps before) (payload : HoverInfo) :
    SelectionAgrees (setHoverInfo before payload) ↔
      (∀ id, payload.runId = some id → (before.idIndexMap id).isSome = true) ∧
        (payload.runId = none → ∀ index, payload.runIndex = some index → (before.indexIdMap index).isSome = true) := by
  obtain ⟨runIndex, runId, checkpointIndex⟩ := payload
  cases runId with
  | some id =>
      have hovered := maps.sameRun_of_id id
      constructor
      · intro agreesAfter
        refine ⟨?_, fun impossible => nomatch impossible⟩
        rintro _ ⟨⟩
        rcases agreesAfter.hovered with ⟨_, impossible⟩ | same
        · cases impossible
        · exact hovered.mp same
      · intro shown
        exact ⟨agrees.selected, Or.inr (hovered.mpr (shown.1 id rfl))⟩
  | none =>
      cases runIndex with
      | some index =>
          have hovered := maps.sameRun_of_index index
          constructor
          · intro agreesAfter
            refine ⟨fun _ impossible => (nomatch impossible), ?_⟩
            rintro _ _ ⟨⟩
            rcases agreesAfter.hovered with ⟨impossible, _⟩ | same
            · cases impossible
            · exact hovered.mp same
          · intro shown
            exact ⟨agrees.selected, Or.inr (hovered.mpr (shown.2 rfl index rfl))⟩
      | none =>
          refine iff_of_true ⟨agrees.selected, Or.inl ⟨rfl, rfl⟩⟩ ⟨?_, ?_⟩
          · intro _ impossible
            cases impossible
          · intro _ _ impossible
            cases impossible

theorem dispatch_maps (maps : HasMaps before) (action : DimensionsAction) :
    HasMaps (dispatch realm castPath before action) := by
  cases action with
  | setSelectedIndexes payload => exact maps
  | setSelectedIds payload => exact maps
  | setHoverInfo payload =>
      obtain ⟨runIndex, runId, checkpointIndex⟩ := payload
      cases runId with
      | some id => exact maps
      | none =>
          cases runIndex with
          | some index => exact maps
          | none => exact maps
  | setTableApi => exact maps
  | toggleDimensionsToFiltered rows =>
      rcases toggle_cases rows with ⟨_, alone⟩ | ⟨_, _, made⟩
      · exact alone.maps maps
      · exact made.hasMaps
  | updateFiltered rows =>
      rcases updateFiltered_cases rows with ⟨_, alone⟩ | ⟨_, _, _, made⟩
      · exact alone.maps maps
      · exact made.hasMaps
  | getRunsSuccess runs definedFields => exact maps
  | changeFilterModel payload =>
      rcases changeFilterModel_cases payload with ⟨_, alone⟩ | ⟨_, _, _, made⟩
      · exact alone.maps maps
      · exact made.hasMaps

/-- An action leaves the selection right exactly if it keeps it. -/
theorem dispatch_agrees_iff (agrees : SelectionAgrees before) (maps : HasMaps before) (action : DimensionsAction) :
    SelectionAgrees (dispatch realm castPath before action) ↔
      KeepsSelection realm before action (dispatch realm castPath before action) := by
  cases action with
  | setSelectedIndexes payload =>
      have selected : List.Forall₂ (SameRun before) (payload.map before.indexIdMap) (payload.map some) ↔
          ∀ index ∈ payload, (before.indexIdMap index).isSome = true :=
        selected_iff fun index _ => maps.sameRun_of_index index
      exact ⟨fun agreesAfter => selected.mp agreesAfter.selected, fun shown => ⟨selected.mpr shown, agrees.hovered⟩⟩
  | setSelectedIds payload =>
      have selected : List.Forall₂ (SameRun before) (payload.map some) (payload.map before.idIndexMap) ↔
          ∀ id ∈ payload, (before.idIndexMap id).isSome = true :=
        selected_iff fun id _ => maps.sameRun_of_id id
      exact ⟨fun agreesAfter => selected.mp agreesAfter.selected, fun shown => ⟨selected.mpr shown, agrees.hovered⟩⟩
  | setHoverInfo payload => exact setHoverInfo_iff agrees maps payload
  | setTableApi => exact iff_of_true ⟨agrees.selected, agrees.hovered⟩ trivial
  | toggleDimensionsToFiltered rows =>
      rcases toggle_cases rows with ⟨noTable, alone⟩ | ⟨hasTable, same, made⟩
      · refine iff_of_true (alone.agrees agrees) ?_
        intro hasTable
        rw [noTable] at hasTable
        cases hasTable
      · rw [agrees_iff_stay agrees same made]
        exact ⟨fun stay _ => stay, fun stay => stay hasTable⟩
  | updateFiltered rows =>
      rcases updateFiltered_cases rows with ⟨unfiltered, alone⟩ | ⟨filtered, hasTable, same, made⟩
      · exact iff_of_true (alone.agrees agrees) fun filtered hasTable => absurd ⟨filtered, hasTable⟩ unfiltered
      · rw [agrees_iff_stay agrees same made]
        exact ⟨fun stay _ _ => stay, fun stay => stay filtered hasTable⟩
  | getRunsSuccess runs definedFields => exact iff_of_true ⟨agrees.selected, agrees.hovered⟩ trivial
  | changeFilterModel payload =>
      rcases changeFilterModel_cases payload with ⟨unknown, alone⟩ | ⟨runs, filtered, same, made⟩
      · exact iff_of_true (alone.agrees agrees) fun runs filtered => absurd filtered (unknown runs)
      · rw [agrees_iff_stay agrees same made]
        constructor
        · intro stay other otherFiltered
          obtain rfl := Except.ok.inj (filtered.symm.trans otherFiltered)
          exact stay
        · exact fun stay => stay runs filtered

theorem start_agrees : SelectionAgrees {} where
  selected := List.Forall₂.nil
  hovered := Or.inl ⟨rfl, rfl⟩

theorem start_maps : HasMaps {} :=
  ⟨[], rfl, rfl⟩

end Steps

/-- The steps of a dashboard: an action with the state it leads to. -/
def Dispatches (realm : Realm) (castPath : String → List String) (steps : List (DimensionsAction × DimensionsState)) :
    Prop :=
  Trace.Every (fun before action after => after = dispatch realm castPath before action) {} steps

/-- Selection and hovering denote the same runs by id and by index in every state of a dashboard exactly if each of its
actions keeps the selection. -/
theorem selection_agrees_iff {realm : Realm} {castPath : String → List String}
    {steps : List (DimensionsAction × DimensionsState)} (dispatched : Dispatches realm castPath steps) :
    (∀ state ∈ Trace.reached {} steps, SelectionAgrees state) ↔ Trace.Every (KeepsSelection realm) {} steps := by
  have eachStep : Trace.Every (fun _ _ after => SelectionAgrees after) {} steps ↔
      Trace.Every (KeepsSelection realm) {} steps := by
    apply Trace.every_iff _ _ (fun state => SelectionAgrees state ∧ HasMaps state) _ _
      ⟨start_agrees, start_maps⟩ dispatched
    · rintro before action _ ⟨agrees, maps⟩ rfl
      exact dispatch_agrees_iff agrees maps action
    · rintro before action _ ⟨_, maps⟩ rfl agreesAfter
      exact ⟨agreesAfter, dispatch_maps maps action⟩
  rw [← eachStep, Trace.every_state_iff, Trace.reached, List.forall_mem_cons]
  exact and_iff_right start_agrees

/-- Two runs with these ids. -/
def realmWithRuns (first second : String) : Realm where
  members address := [("id", .string (if address = 0 then first else second))]

/-- Two runs are shown and the second one is selected. -/
def selectSecond : List DimensionsAction :=
  [.getRunsSuccess [.reference 0, .reference 1] [], .changeFilterModel none, .setSelectedIndexes [1]]

def stepsOf (actions : List DimensionsAction) : List (DimensionsAction × DimensionsState) :=
  Trace.play (dispatch (realmWithRuns "7" "8") DottedText.splitDots) {} actions

/-- The selected id and the selected index are those of the second run. -/
theorem selection_agrees_selected :
    (∀ state ∈ Trace.reached {} (stepsOf selectSecond), SelectionAgrees state) ∧
      Dispatches (realmWithRuns "7" "8") DottedText.splitDots (stepsOf selectSecond) := by
  refine ⟨(selection_agrees_iff (Trace.every_play _ _ _)).mpr ⟨trivial, ?_, ?_, trivial⟩, Trace.every_play _ _ _⟩
  · intro runs _
    exact ⟨fun pair isPair => (nomatch isPair), fun run isRun => (nomatch isRun)⟩
  · intro index isIndex
    rw [List.mem_singleton.mp isIndex]
    decide +kernel

/-- A run stays selected when a filter leaves it out, at an index where no run is any more. -/
theorem filtered_out_selected : ∃ (realm : Realm) (castPath : String → List String)
    (steps : List (DimensionsAction × DimensionsState)), Dispatches realm castPath steps ∧
      ¬∀ state ∈ Trace.reached {} steps, SelectionAgrees state := by
  refine ⟨realmWithRuns "7" "8", DottedText.splitDots,
    stepsOf (selectSecond ++ [.changeFilterModel (some ⟨some "experiment", .string "3"⟩)]), Trace.every_play _ _ _, ?_⟩
  intro agrees
  obtain ⟨⟨_, _, _, _, found, _⟩, _⟩ :=
    List.forall₂_cons.mp (agrees _ (List.mem_of_getElem? (i := 4) rfl)).selected
  cases found

end Zigopt.Web
