/-
Module: Zigopt.Web.CodeGeneratorRight
Layer: Web
Purpose: The code for an experiment denotes it exactly if all keys that are kept are names of Python and none of them is
  `__proto__`. Strings, numbers and nested values are always right.
Main exports: codeOf_reads, python_denotes_iff
-/
import Mathlib.Data.List.Perm.Basic
import Zigopt.Lib.DecimalNumerals
import Zigopt.Web.CodeGenerator

namespace Zigopt.Web

open PythonLiteral

/-! ### Without `__proto__` -/

mutual

/-- What is left when no object can have a member `__proto__`. -/
def withoutProto : Json → Json
  | .null => .null
  | .boolean value => .boolean value
  | .number value => .number value
  | .string text => .string text
  | .array items => .array (withoutProtoItems items)
  | .object members => .object (withoutProtoMembers members)

def withoutProtoItems : List Json → List Json
  | [] => []
  | item :: rest => withoutProto item :: withoutProtoItems rest

def withoutProtoMembers : List (String × Json) → JsonObject
  | [] => []
  | (key, value) :: rest =>
      if key = "__proto__" then withoutProtoMembers rest
      else (key, withoutProto value) :: withoutProtoMembers rest

end

theorem withoutProtoMembers_eq (members : JsonObject) : withoutProtoMembers members =
    (members.filter fun member => member.1 ≠ "__proto__").map fun member => (member.1, withoutProto member.2) := by
  induction members with
  | nil => rfl
  | cons member rest inductionHypothesis =>
      rw [withoutProtoMembers, inductionHypothesis]
      by_cases isProto : member.1 = "__proto__"
      · rw [if_pos isProto, List.filter_cons_of_neg (by simpa using isProto)]
      · rw [if_neg isProto, List.filter_cons_of_pos (by simpa using isProto), List.map_cons]

mutual

theorem withoutProto_noProto : ∀ value, KeysAre (· ≠ "__proto__") (withoutProto value)
  | .null => trivial
  | .boolean _ => trivial
  | .number _ => trivial
  | .string _ => trivial
  | .array items => withoutProtoItems_noProto items
  | .object members => withoutProtoMembers_noProto members

theorem withoutProtoItems_noProto : ∀ items, KeysAreItems (· ≠ "__proto__") (withoutProtoItems items)
  | [] => trivial
  | item :: rest => ⟨withoutProto_noProto item, withoutProtoItems_noProto rest⟩

theorem withoutProtoMembers_noProto : ∀ members, KeysAreMembers (· ≠ "__proto__") (withoutProtoMembers members)
  | [] => trivial
  | (key, value) :: rest => by
      rw [withoutProtoMembers]
      split
      · exact withoutProtoMembers_noProto rest
      · rename_i notProto
        exact ⟨notProto, withoutProto_noProto value, withoutProtoMembers_noProto rest⟩

end

mutual

theorem withoutProto_eq_self : ∀ value, KeysAre (· ≠ "__proto__") value → withoutProto value = value
  | .null, _ => rfl
  | .boolean _, _ => rfl
  | .number _, _ => rfl
  | .string _, _ => rfl
  | .array items, keys => congrArg Json.array (withoutProtoItems_eq_self items keys)
  | .object members, keys => congrArg Json.object (withoutProtoMembers_eq_self members keys)

theorem withoutProtoItems_eq_self : ∀ items, KeysAreItems (· ≠ "__proto__") items → withoutProtoItems items = items
  | [], _ => rfl
  | item :: rest, keys => by
      rw [withoutProtoItems, withoutProto_eq_self item keys.1, withoutProtoItems_eq_self rest keys.2]

theorem withoutProtoMembers_eq_self : ∀ members, KeysAreMembers (· ≠ "__proto__") members →
    withoutProtoMembers members = members
  | [], _ => rfl
  | (key, value) :: rest, keys => by
      rw [withoutProtoMembers, if_neg keys.1, withoutProto_eq_self value keys.2.1,
        withoutProtoMembers_eq_self rest keys.2.2]

end

mutual

theorem keysAre_withoutProto {good : String → Prop} : ∀ value, KeysAre good value → KeysAre good (withoutProto value)
  | .null, _ => trivial
  | .boolean _, _ => trivial
  | .number _, _ => trivial
  | .string _, _ => trivial
  | .array items, keys => keysAreItems_withoutProto items keys
  | .object members, keys => keysAreMembers_withoutProto members keys

theorem keysAreItems_withoutProto {good : String → Prop} : ∀ items, KeysAreItems good items →
    KeysAreItems good (withoutProtoItems items)
  | [], _ => trivial
  | item :: rest, keys => ⟨keysAre_withoutProto item keys.1, keysAreItems_withoutProto rest keys.2⟩

theorem keysAreMembers_withoutProto {good : String → Prop} : ∀ members, KeysAreMembers good members →
    KeysAreMembers good (withoutProtoMembers members)
  | [], _ => trivial
  | (key, value) :: rest, keys => by
      rw [withoutProtoMembers]
      split
      · exact keysAreMembers_withoutProto rest keys.2.2
      · exact ⟨keys.1, keysAre_withoutProto value keys.2.1, keysAreMembers_withoutProto rest keys.2.2⟩

end

/-! ### Lines of children -/

theorem innerCode_cons {piece next : List (List Char)} {rest : List (List (List Char))} :
    innerCode (piece :: next :: rest) = piece ++ joiner :: innerCode (next :: rest) := by
  have nonempty : ((next :: rest).flatMap fun piece => piece ++ [joiner]) ≠ [] := by simp
  rw [innerCode, List.flatMap_cons, List.dropLast_append_of_ne_nil nonempty, List.append_assoc]
  rfl

theorem innerCode_singleton {piece : List (List Char)} : innerCode [piece] = piece := by
  rw [innerCode, List.flatMap_cons, List.flatMap_nil, List.append_nil, List.dropLast_concat]

/-- Less the last joiner, the children stand on lines of their own with commas in between. -/
theorem innerCode_flatten {pieces : List (List (List Char))} (nonempty : pieces ≠ []) :
    '\n' :: (innerCode pieces).flatten = joined (pieces.map fun piece => '\n' :: piece.flatten) := by
  induction pieces with
  | nil => exact absurd rfl nonempty
  | cons piece rest inductionHypothesis =>
      cases rest with
      | nil =>
          rw [innerCode_singleton]
          rfl
      | cons next rest =>
          have later := inductionHypothesis (List.cons_ne_nil _ _)
          rw [List.map_cons] at later
          rw [innerCode_cons, List.map_cons, List.map_cons, joined, ← later, List.flatten_append, List.flatten_cons,
            joiner]
          simp

theorem innerCode_ne_nil {pieces : List (List (List Char))} (nonempty : pieces ≠ [])
    (each : ∀ piece ∈ pieces, piece ≠ []) : innerCode pieces ≠ [] := by
  cases pieces with
  | nil => exact absurd rfl nonempty
  | cons piece rest =>
      have some := each piece List.mem_cons_self
      cases rest with
      | nil =>
          rw [innerCode_singleton]
          exact some
      | cons next rest =>
          rw [innerCode_cons]
          exact List.append_ne_nil_of_left_ne_nil some _

section Blocks

variable {names : Names} {numerals : Numerals} {indent : List Char}

/-- Spaces only. -/
def Blank (indent : List Char) : Prop := ∀ character ∈ indent, isSpace character = true

/-- Indenting further keeps the indentation blank. -/
theorem Blank.next (blank : Blank indent) : Blank (indent ++ indentSize) := by
  intro character isIn
  rcases List.mem_append.mp isIn with before | added
  · exact blank character before
  · rw [indentSize] at added
    simp only [List.mem_cons, List.not_mem_nil, or_false, or_self] at added
    rw [added]
    rfl

/-- A block with children, line by line. -/
theorem enclosedBlock_eq {opener closer : List Char} {pieces : List (List (List Char))} (nonempty : pieces ≠ [])
    (each : ∀ piece ∈ pieces, piece ≠ []) : enclosedBlock indent opener closer (innerCode pieces) =
      opener ++ (joined (pieces.map fun piece => '\n' :: piece.flatten) ++
        '\n' :: (indent ++ indentSize ++ closer)) := by
  rw [enclosedBlock, if_neg (innerCode_ne_nil nonempty each), ← innerCode_flatten nonempty]
  simp

theorem reads_arrayCode (blank : Blank indent) {codes : List (List Char)} {values : List Json}
    (each : List.Forall₂ (Reads names numerals) codes values) :
    Reads names numerals (arrayCode indent codes) (.array values) := by
  cases each with
  | nil => exact reads_emptyList
  | @cons code value codes values reads others =>
      have spaced : List.Forall₂ (Reads names numerals)
          ((code :: codes).map fun code => '\n' :: (indent ++ indentSize ++ code)) (value :: values) := by
        rw [List.forall₂_map_left_iff]
        refine (List.Forall₂.cons reads others).imp fun code value isRead => ?_
        exact reads_spaced (List.forall_mem_cons.mpr ⟨rfl, blank.next⟩) isRead
      have lines : ((code :: codes).map fun code => [indent ++ indentSize, code]).map (fun piece => '\n' :: piece.flatten) =
          (code :: codes).map fun code => '\n' :: (indent ++ indentSize ++ code) := by
        rw [List.map_map]
        apply List.map_congr_left
        intro code _
        simp
      rw [arrayCode, enclosedBlock_eq (by simp) (by simp), lines]
      exact reads_list spaced (by simp) blank.next

/-- An entry of an object with the member that it is read as. -/
def EntryReads (names : Names) (numerals : Numerals) (entry : String × List Char) (member : String × Json) : Prop :=
  entry.1 = member.1 ∧ names.isName entry.1 = true ∧ Reads names numerals entry.2 member.2

theorem sortEntries_perm (entries : List (String × List Char)) : List.Perm (sortEntries entries) entries :=
  (List.perm_insertionSort _ _).trans (List.perm_insertionSort _ _)

theorem objectCode_eq {opener : List Char} {entries : List (String × List Char)} (nonempty : sortEntries entries ≠ []) :
    objectCode indent opener entries = opener ++ (joined ((sortEntries entries).map (argument (indent ++ indentSize))) ++
      '\n' :: (indent ++ indentSize ++ [')'])) := by
  have lines : ((sortEntries entries).map fun entry => [indent ++ indentSize, keyOpener entry.1, entry.2, []]).map
      (fun piece => '\n' :: piece.flatten) = (sortEntries entries).map (argument (indent ++ indentSize)) := by
    rw [List.map_map]
    apply List.map_congr_left
    intro entry _
    simp [argument, keyOpener]
  have each : ∀ piece ∈ (sortEntries entries).map fun entry => [indent ++ indentSize, keyOpener entry.1, entry.2, []],
      piece ≠ [] := by
    intro piece isPiece
    obtain ⟨entry, _, rfl⟩ := List.mem_map.mp isPiece
    exact List.cons_ne_nil _ _
  rw [objectCode, enclosedBlock_eq (by simpa using nonempty) each, lines]

/-- In the order of the code, the entries are read as the members in some order. -/
theorem exists_sorted {entries : List (String × List Char)} {members : JsonObject}
    (each : List.Forall₂ (EntryReads names numerals) entries members) :
    ∃ ordered, List.Forall₂ (EntryReads names numerals) (sortEntries entries) ordered ∧ List.Perm ordered members := by
  obtain ⟨ordered, sorted, perm⟩ := List.perm_comp_forall₂ (sortEntries_perm entries) each
  exact ⟨ordered, sorted, perm⟩

theorem sortMembers_congr {first second : JsonObject} (perm : List.Perm first second)
    (distinct : (first.map Prod.fst).Nodup) : sortMembers first = sortMembers second := by
  have ordered : ∀ members, (sortMembers members).Pairwise fun first second => first.1 ≤ second.1 :=
    fun members => List.pairwise_insertionSort _ _
  refine List.Perm.eq_of_pairwise ?_ (ordered first) (ordered second)
    ((List.perm_insertionSort _ _).trans (perm.trans (List.perm_insertionSort _ _).symm))
  intro member other isMember isOther below above
  have isFirst := mem_sortMembers.mp isMember
  have isSecond := perm.mem_iff.mpr (mem_sortMembers.mp isOther)
  exact List.inj_on_of_nodup_map distinct isFirst isSecond (le_antisymm below above)

theorem reads_objectCode (blank : Blank indent) {entries : List (String × List Char)} {members : JsonObject}
    (each : List.Forall₂ (EntryReads names numerals) entries members) (distinct : (members.map Prod.fst).Nodup) :
    Reads names numerals (objectCode indent ['d', 'i', 'c', 't', '('] entries) (.object (sortMembers members)) := by
  obtain ⟨ordered, sorted, perm⟩ := exists_sorted each
  rw [← sortMembers_congr perm ((perm.map Prod.fst).nodup_iff.mpr distinct)]
  cases isEmpty : sortEntries entries with
  | nil =>
      rw [isEmpty] at sorted
      cases sorted
      rw [objectCode, isEmpty]
      exact reads_emptyDict
  | cons entry rest =>
      have nonempty : sortEntries entries ≠ [] := by simp [isEmpty]
      rw [objectCode_eq nonempty]
      exact reads_dict blank.next blank.next sorted nonempty ((perm.map Prod.fst).nodup_iff.mpr distinct)

end Blocks

/-! ### Every value -/

section Values

variable {names : Names} {numerals : Numerals}

variable (names numerals) in
/-- There is code, which is read as the value less its members `__proto__` where all keys are names. -/
def CodeReads (code : Except JsError (List Char)) (value : Json) : Prop :=
  ∃ text, code = .ok text ∧
    (KeysAre (names.isName ·) (withoutProto value) → Reads names numerals text (withoutProto value))

variable (names numerals) in
def ItemsRead (codes : Except JsError (List (List Char))) (values : List Json) : Prop :=
  ∃ texts, codes = .ok texts ∧ (KeysAreItems (names.isName ·) (withoutProtoItems values) →
    List.Forall₂ (Reads names numerals) texts (withoutProtoItems values))

variable (names numerals) in
def MembersRead (codes : Except JsError (List (String × List Char))) (members : JsonObject) : Prop :=
  ∃ entries, codes = .ok entries ∧ (KeysAreMembers (names.isName ·) (withoutProtoMembers members) →
    List.Forall₂ (EntryReads names numerals) entries (withoutProtoMembers members))

theorem codeReads_array {indent : List Char} (blank : Blank indent) {codes : Except JsError (List (List Char))}
    {values : List Json} (items : ItemsRead names numerals codes values) :
    CodeReads names numerals (do .ok (arrayCode indent (← codes))) (.array values) := by
  obtain ⟨texts, rfl, reads⟩ := items
  exact ⟨arrayCode indent texts, rfl, fun keys => reads_arrayCode blank (reads keys)⟩

theorem itemsRead_cons {code : Except JsError (List Char)} {value : Json} (first : CodeReads names numerals code value)
    {codes : Except JsError (List (List Char))} {values : List Json} (others : ItemsRead names numerals codes values) :
    ItemsRead names numerals (do .ok ((← code) :: (← codes))) (value :: values) := by
  obtain ⟨text, rfl, reads⟩ := first
  obtain ⟨texts, rfl, othersRead⟩ := others
  exact ⟨text :: texts, rfl, fun keys => .cons (reads keys.1) (othersRead keys.2)⟩

theorem membersRead_cons {key : String} (notProto : key ≠ "__proto__") {code : Except JsError (List Char)} {value : Json}
    (first : CodeReads names numerals code value) {codes : Except JsError (List (String × List Char))}
    {members : JsonObject} (others : MembersRead names numerals codes members) :
    MembersRead names numerals (do .ok ((key, ← code) :: (← codes))) ((key, value) :: members) := by
  obtain ⟨text, rfl, reads⟩ := first
  obtain ⟨entries, rfl, othersRead⟩ := others
  refine ⟨(key, text) :: entries, rfl, ?_⟩
  rw [withoutProtoMembers, if_neg notProto]
  exact fun keys => .cons ⟨rfl, keys.1, reads keys.2.1⟩ (othersRead keys.2.2)

theorem membersRead_proto {key : String} (isProto : key = "__proto__") {value : Json}
    {codes : Except JsError (List (String × List Char))} {members : JsonObject}
    (others : MembersRead names numerals codes members) : MembersRead names numerals codes ((key, value) :: members) := by
  rw [MembersRead, withoutProtoMembers, if_pos isProto]
  exact others

theorem withoutProto_sortMembers {members : JsonObject} (distinct : (members.map Prod.fst).Nodup) :
    withoutProtoMembers (sortMembers members) = sortMembers (withoutProtoMembers members) ∧
      ((withoutProtoMembers members).map Prod.fst).Nodup := by
  have keys : ∀ members : JsonObject, (withoutProtoMembers members).map Prod.fst =
      (members.filter fun member => member.1 ≠ "__proto__").map Prod.fst := by
    intro members
    rw [withoutProtoMembers_eq, List.map_map]
    rfl
  have distinctKept : ((withoutProtoMembers members).map Prod.fst).Nodup := by
    rw [keys]
    exact distinct.sublist (List.filter_sublist.map _)
  refine ⟨?_, distinctKept⟩
  have perm : List.Perm (withoutProtoMembers (sortMembers members)) (withoutProtoMembers members) := by
    rw [withoutProtoMembers_eq, withoutProtoMembers_eq]
    exact ((List.perm_insertionSort _ _).filter _).map _
  have ordered : (withoutProtoMembers (sortMembers members)).Pairwise fun first second => first.1 ≤ second.1 := by
    rw [withoutProtoMembers_eq, List.pairwise_map]
    exact (List.pairwise_insertionSort (fun first second : String × Json => first.1 ≤ second.1) members).filter _
  rw [← sortMembers_congr perm ((perm.map Prod.fst).nodup_iff.mpr distinctKept)]
  exact (List.Pairwise.insertionSort_eq ordered).symm

theorem keysAreMembers_sortMembers {good : String → Prop} {members : JsonObject} :
    KeysAreMembers good (sortMembers members) ↔ KeysAreMembers good members := by
  rw [keysAreMembers_iff, keysAreMembers_iff]
  exact forall_congr' fun member => imp_congr_left mem_sortMembers

/-- The dictionary of the members that are read. -/
theorem codeReads_object {indent : List Char} (blank : Blank indent)
    {codes : Except JsError (List (String × List Char))} {members : JsonObject}
    (entries : MembersRead names numerals codes members) {value : Json} (made : dictionary members = some value) :
    CodeReads names numerals (do .ok (objectCode indent ['d', 'i', 'c', 't', '('] (← codes))) value := by
  obtain ⟨texts, rfl, reads⟩ := entries
  unfold dictionary at made
  split at made
  · rename_i distinct
    rw [Option.some.injEq] at made
    subst made
    obtain ⟨sorted, distinctKept⟩ := withoutProto_sortMembers distinct
    refine ⟨_, rfl, fun keys => ?_⟩
    rw [withoutProto, sorted] at keys ⊢
    exact reads_objectCode blank (reads (keysAreMembers_sortMembers.mp keys)) distinctKept
  · cases made

mutual

/-- By recursion on the value, in step with the generator. -/
theorem codeOf_reads : ∀ (json : Json) (indent : List Char), Blank indent → ∀ value, kept json = some value →
    CodeReads names numerals (codeOf numerals indent json) value
  | .null, _, _, _, rfl => ⟨_, rfl, fun _ => reads_keywords.2.2⟩
  | .boolean true, _, _, _, rfl => ⟨_, rfl, fun _ => reads_keywords.1⟩
  | .boolean false, _, _, _, rfl => ⟨_, rfl, fun _ => reads_keywords.2.1⟩
  | .number number, _, _, _, rfl => ⟨_, rfl, fun _ => reads_number number⟩
  | .string text, _, _, _, rfl => ⟨_, rfl, fun _ => reads_string text⟩
  | .array items, indent, blank, value, isKept => by
      rw [kept, Option.map_eq_some_iff] at isKept
      obtain ⟨values, keptValues, rfl⟩ := isKept
      exact codeReads_array blank (codeOfItems_reads items _ blank.next values keptValues)
  | .object members, indent, blank, value, isKept => by
      rw [kept, Option.bind_eq_some_iff] at isKept
      obtain ⟨keptOnes, areKept, made⟩ := isKept
      exact codeReads_object blank (codeOfMembers_reads members _ blank.next false keptOnes areKept) made

theorem codeOfItems_reads : ∀ (items : List Json) (indent : List Char), Blank indent → ∀ values,
    keptItems items = some values → ItemsRead names numerals (codeOfItems numerals indent items) values
  | [], _, _, _, rfl => ⟨[], rfl, fun _ => .nil⟩
  | item :: rest, indent, blank, values, areKept => by
      rw [keptItems] at areKept
      simp only [Option.bind_eq_bind, Option.bind_eq_some_iff, Option.some.injEq] at areKept
      obtain ⟨value, isKept, others, othersKept, rfl⟩ := areKept
      exact itemsRead_cons (codeOf_reads item indent blank value isKept)
        (codeOfItems_reads rest indent blank others othersKept)

theorem codeOfMembers_reads : ∀ (members : List (String × Json)) (indent : List Char), Blank indent →
    ∀ isApiCall keptOnes, keptMembers isApiCall members = some keptOnes →
      MembersRead names numerals (codeOfMembers numerals indent isApiCall members) keptOnes
  | [], _, _, _, _, rfl => ⟨[], rfl, fun _ => .nil⟩
  | (key, json) :: rest, indent, blank, isApiCall, keptOnes, areKept => by
      rw [keptMembers] at areKept
      rw [codeOfMembers]
      by_cases denied : key ∈ denyList isApiCall
      · rw [if_pos denied] at areKept
        rw [if_pos (Or.inl denied)]
        exact codeOfMembers_reads rest indent blank isApiCall keptOnes areKept
      · rw [if_neg denied] at areKept
        by_cases isProto : key = "__proto__"
        · rw [if_pos (Or.inr isProto)]
          split at areKept
          · simp only [Option.bind_eq_bind, Option.bind_eq_some_iff, Option.some.injEq] at areKept
            obtain ⟨value, _, others, othersKept, rfl⟩ := areKept
            exact membersRead_proto isProto (codeOfMembers_reads rest indent blank isApiCall others othersKept)
          · simp only [Option.bind_eq_bind, Option.bind_eq_some_iff, Option.some.injEq] at areKept
            obtain ⟨value, _, others, othersKept, rfl⟩ := areKept
            exact membersRead_proto isProto (codeOfMembers_reads rest indent blank isApiCall others othersKept)
        · rw [if_neg (not_or.mpr ⟨denied, isProto⟩)]
          by_cases values : key = "categorical_values" ∧ isApiCall = false
          · rw [if_pos values] at areKept
            rw [if_pos values]
            simp only [Option.bind_eq_bind, Option.bind_eq_some_iff, Option.some.injEq] at areKept
            obtain ⟨value, isKept, others, othersKept, rfl⟩ := areKept
            exact membersRead_cons isProto (codeOfValues_reads json indent blank value isKept)
              (codeOfMembers_reads rest indent blank isApiCall others othersKept)
          · rw [if_neg values] at areKept
            rw [if_neg values]
            simp only [Option.bind_eq_bind, Option.bind_eq_some_iff, Option.some.injEq] at areKept
            obtain ⟨value, isKept, others, othersKept, rfl⟩ := areKept
            exact membersRead_cons isProto (codeOf_reads json indent blank value isKept)
              (codeOfMembers_reads rest indent blank isApiCall others othersKept)

theorem codeOfValues_reads : ∀ (json : Json) (indent : List Char), Blank indent → ∀ value,
    keptValues json = some value → CodeReads names numerals (codeOfValues numerals indent json) value
  | .null, _, _, _, rfl => ⟨_, rfl, fun _ => reads_keywords.2.2⟩
  | .boolean true, _, _, _, rfl => ⟨_, rfl, fun _ => reads_keywords.1⟩
  | .boolean false, _, _, _, rfl => ⟨_, rfl, fun _ => reads_keywords.2.1⟩
  | .number number, _, _, _, rfl => ⟨_, rfl, fun _ => reads_number number⟩
  | .string text, _, _, _, rfl => ⟨_, rfl, fun _ => reads_string text⟩
  | .array items, indent, blank, value, isKept => by
      rw [keptValues, Option.map_eq_some_iff] at isKept
      obtain ⟨values, namesKept, rfl⟩ := isKept
      exact codeReads_array blank (codeOfNames_reads items _ blank.next values namesKept)
  | .object _, _, _, _, isKept => by
      rw [keptValues] at isKept
      cases isKept

theorem codeOfNames_reads : ∀ (items : List Json) (indent : List Char), Blank indent → ∀ values,
    keptNames items = some values → ItemsRead names numerals (codeOfNames numerals indent items) values
  | [], _, _, _, rfl => ⟨[], rfl, fun _ => .nil⟩
  | .object members :: rest, indent, blank, values, areKept => by
      rw [keptNames] at areKept
      simp only [Option.bind_eq_bind, Option.bind_eq_some_iff, Option.some.injEq] at areKept
      obtain ⟨value, isKept, others, othersKept, rfl⟩ := areKept
      exact itemsRead_cons (codeOfName_reads members indent blank value isKept)
        (codeOfNames_reads rest indent blank others othersKept)
  | .null :: _, _, _, _, isKept => nomatch isKept
  | .boolean _ :: _, _, _, _, isKept => nomatch isKept
  | .number _ :: _, _, _, _, isKept => nomatch isKept
  | .string _ :: _, _, _, _, isKept => nomatch isKept
  | .array _ :: _, _, _, _, isKept => nomatch isKept

theorem codeOfName_reads : ∀ (members : List (String × Json)) (indent : List Char), Blank indent → ∀ value,
    keptName members = some value → CodeReads names numerals (codeOfName numerals indent members) value
  | [], _, _, _, isKept => nomatch isKept
  | (key, json) :: rest, indent, blank, value, isKept => by
      rw [keptName] at isKept
      rw [codeOfName]
      split at isKept
      · rename_i isName
        rw [if_pos isName]
        exact codeOf_reads json indent blank value isKept
      · rename_i other
        rw [if_neg other]
        exact codeOfName_reads rest indent blank value isKept

end

end Values

/-! ### The create call -/

section CreateCall

variable {names : Names} {numerals : Numerals}

theorem evaluateCreate_append {text : List Char} {members : JsonObject}
    (read : readMembers names numerals text.length text = some (members, [])) :
    evaluateCreate names numerals (createOpener ++ text) = dictionary members := by
  rw [evaluateCreate, List.drop_left, List.take_left]
  refine (if_pos rfl).trans ?_
  rw [read]

/-- A create call has names as keys. -/
theorem keysAre_of_evaluateCreate {text : List Char} {value : Json}
    (evaluates : evaluateCreate names numerals text = some value) : KeysAre (names.isName ·) value := by
  unfold evaluateCreate at evaluates
  dsimp only at evaluates
  split at evaluates
  · split at evaluates
    · rename_i members read
      exact keysAre_of_dictionary evaluates ((keysAre_of_readValue _).2.2 _ _ read)
    · cases evaluates
  · cases evaluates

/-- The text of the entries is read as the call with these arguments. -/
theorem evaluateCreate_objectCode {entries : List (String × List Char)} {members : JsonObject}
    (each : List.Forall₂ (EntryReads names numerals) entries members) (distinct : (members.map Prod.fst).Nodup) :
    evaluateCreate names numerals (objectCode [] createOpener entries) = some (.object (sortMembers members)) := by
  obtain ⟨ordered, sorted, perm⟩ := exists_sorted each
  have distinctOrdered : (ordered.map Prod.fst).Nodup := (perm.map Prod.fst).nodup_iff.mpr distinct
  have made : dictionary ordered = some (.object (sortMembers members)) := by
    rw [dictionary, if_pos distinctOrdered, sortMembers_congr perm distinctOrdered]
  have blank : Blank [] := by
    intro character isIn
    cases isIn
  cases isEmpty : sortEntries entries with
  | nil =>
      rw [isEmpty] at sorted
      cases sorted
      rw [objectCode, isEmpty, ← made]
      exact evaluateCreate_append rfl
  | cons entry rest =>
      have nonempty : sortEntries entries ≠ [] := by simp [isEmpty]
      rw [objectCode_eq nonempty, ← made]
      exact evaluateCreate_append (readMembers_joined blank.next blank.next sorted nonempty (le_refl _) [])

end CreateCall

/-- For every experiment, and whatever the names and the numerals are: the code is right exactly under this condition. -/
theorem python_denotes_iff (names : Names) (numerals : Numerals) (experiment : JsonObject) :
    Denotes names numerals experiment ↔ NamedKeys names experiment := by
  have evaluated : ∀ value, keptExperiment experiment = some value →
      ∃ text, codeOfExperiment numerals experiment = .ok text ∧
        (KeysAre (names.isName ·) (withoutProto value) →
          evaluateCreate names numerals text = some (withoutProto value)) := by
    intro value isKept
    rw [keptExperiment, Option.bind_eq_some_iff] at isKept
    obtain ⟨members, membersKept, made⟩ := isKept
    have blank : Blank indentSize := by
      intro character isIn
      simp only [indentSize, List.mem_cons, List.not_mem_nil, or_false, or_self] at isIn
      rw [isIn]
      rfl
    obtain ⟨entries, codes, reads⟩ := @codeOfMembers_reads names numerals experiment _ blank true members membersKept
    refine ⟨objectCode [] createOpener entries, by rw [codeOfExperiment, codes]; rfl, ?_⟩
    unfold dictionary at made
    split at made
    · rename_i distinct
      rw [Option.some.injEq] at made
      subst made
      obtain ⟨sorted, distinctKept⟩ := withoutProto_sortMembers distinct
      rw [withoutProto, sorted]
      intro keys
      exact evaluateCreate_objectCode (reads (keysAreMembers_sortMembers.mp keys)) distinctKept
    · cases made
  constructor
  · rintro ⟨value, text, isKept, isText, denotes⟩
    have named := keysAre_of_evaluateCreate denotes
    obtain ⟨other, isOther, evaluates⟩ := evaluated value isKept
    rw [isText, Except.ok.injEq] at isOther
    subst isOther
    rw [evaluates (keysAre_withoutProto value named), Option.some.injEq] at denotes
    refine ⟨value, isKept, (keysAre_and value).mpr ⟨named, ?_⟩⟩
    rw [← denotes]
    exact withoutProto_noProto value
  · rintro ⟨value, isKept, keys⟩
    obtain ⟨named, noProto⟩ := (keysAre_and value).mp keys
    obtain ⟨text, isText, evaluates⟩ := evaluated value isKept
    rw [withoutProto_eq_self value noProto] at evaluates
    exact ⟨value, text, isKept, isText, evaluates named⟩

/-- Objects in a list in an object, a number with places, text that looks like code, and an empty list and object. -/
def experimentWithParameters : JsonObject :=
  [("id", .string "12345"),
   ("metadata", .object [("note", .string "x=1), __import__(\"os\") #"), ("tags", .array []), ("extra", .object [])]),
   ("name", .string "an experiment"),
   ("parameters", .array [
     .object [("bounds", .object [("max", .number (5 / 2)), ("min", .number (-1))]), ("name", .string "rate"),
       ("object", .string "parameter"), ("prior", .null)],
     .object [("categorical_values", .array [.object [("enum_index", .number 1), ("name", .string "tree")]]),
       ("name", .string "booster"), ("tunable", .boolean true)]])]

def keptWithParameters : JsonObject :=
  [("metadata", .object [("extra", .object []), ("note", .string "x=1), __import__(\"os\") #"), ("tags", .array [])]),
   ("name", .string "an experiment"),
   ("parameters", .array [
     .object [("bounds", .object [("max", .number (5 / 2)), ("min", .number (-1))]), ("name", .string "rate"),
       ("prior", .null)],
     .object [("categorical_values", .array [.string "tree"]), ("name", .string "booster"), ("tunable", .boolean true)]])]

/-- What is kept of the experiment is what its code denotes: keys in their order, the category by its name. -/
theorem python_denotes_parameters : Denotes asciiNames decimalNumerals experimentWithParameters := by
  refine (python_denotes_iff asciiNames decimalNumerals experimentWithParameters).mpr ⟨.object keptWithParameters, rfl, ?_⟩
  simp only [keptWithParameters, KeysAre, KeysAreMembers, KeysAreItems]
  decide

/-- Metadata under a key with a space. -/
def experimentWithMetadata : JsonObject :=
  [("metadata", .object [("learning rate", .string "0.1")]), ("name", .string "an experiment")]

theorem experimentWithMetadata_kept : keptExperiment experimentWithMetadata = some (.object experimentWithMetadata) := by
  rfl

/-- The key with a space is written as it is, and is no keyword argument. -/
theorem python_space_in_key : ∃ experiment, (keptExperiment experiment).isSome ∧
    ∀ names numerals, ¬Denotes names numerals experiment := by
  refine ⟨experimentWithMetadata, by rw [experimentWithMetadata_kept]; rfl, ?_⟩
  rintro names numerals ⟨value, text, isKept, _, denotes⟩
  rw [experimentWithMetadata_kept, Option.some.injEq] at isKept
  subst isKept
  have named : names.isName "learning rate" = true := (keysAre_of_evaluateCreate denotes).2.1.1
  have noName : names.isName "learning rate" = false := rfl
  rw [noName] at named
  cases named

end Zigopt.Web
