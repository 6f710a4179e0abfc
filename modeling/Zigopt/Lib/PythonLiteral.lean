/-
Module: Zigopt.Lib.PythonLiteral
Layer: Lib
Purpose: The expressions of Python that are data: strings, numbers, True, False and None, lists, and calls of `dict` with
  keyword arguments. A dictionary is the list of its members in the order of their keys.
Main exports: PythonLiteral.Names, PythonLiteral.Numerals, PythonLiteral.readValue, PythonLiteral.Reads,
  PythonLiteral.KeysAre, PythonLiteral.keysAre_of_readValue
-/
import Mathlib.Data.List.DropRight
import Mathlib.Data.List.Sort
import Zigopt.Lib.Json

namespace PythonLiteral

/-! ### Names and numbers -/

/-- What the Unicode tables say of characters beyond ASCII, and the normal form that names are brought to. -/
structure Names where
  start : Char → Bool
  continues : Char → Bool
  normal : String → String

def keywords : List String :=
  ["False", "None", "True", "and", "as", "assert", "async", "await", "break", "class", "continue", "def", "del", "elif",
    "else", "except", "finally", "for", "from", "global", "if", "import", "in", "is", "lambda", "nonlocal", "not", "or",
    "pass", "raise", "return", "try", "while", "with", "yield"]

def Names.isStart (names : Names) (character : Char) : Bool :=
  character.isAlpha || character = '_' || (128 ≤ character.toNat && names.start character)

def Names.isContinue (names : Names) (character : Char) : Bool :=
  character.isAlphanum || character = '_' ||
    (128 ≤ character.toNat && (names.start character || names.continues character))

/-- What can be the name of an argument: an identifier that is no keyword, in its normal form, and not the constant
    `__debug__`. -/
def Names.isName (names : Names) (name : String) : Bool :=
  match name.toList with
  | [] => false
  | first :: rest =>
      names.isStart first && rest.all names.isContinue && !(name ∈ keywords) && name ≠ "__debug__" &&
        names.normal name = name

def isNumeral (character : Char) : Bool := character.isDigit || character ∈ ['.', 'e', '+', '-']

/-- How numbers are written and read. -/
structure Numerals where
  text : ℚ → List Char
  read : List Char → Option ℚ
  reads : ∀ value, read (text value) = some value
  shape : ∀ value, ∃ first rest, text value = first :: rest ∧ (first.isDigit = true ∨ first = '-') ∧
    ∀ character ∈ rest, isNumeral character = true

/-! ### Reading -/

def hexValue (digit : Char) : Option ℕ :=
  if digit.isDigit then some (digit.toNat - '0'.toNat)
  else if 'a' ≤ digit ∧ digit ≤ 'f' then some (digit.toNat - 'a'.toNat + 10)
  else if 'A' ≤ digit ∧ digit ≤ 'F' then some (digit.toNat - 'A'.toNat + 10)
  else none

def hexCode (first second third fourth : Char) : Option ℕ := do
  some (4096 * (← hexValue first) + 256 * (← hexValue second) + 16 * (← hexValue third) + (← hexValue fourth))

def escapedCharacter : Char → Option Char
  | '"' => some '"'
  | '\\' => some '\\'
  | 'b' => some '\x08'
  | 'f' => some '\x0c'
  | 'n' => some '\n'
  | 'r' => some '\r'
  | 't' => some '\t'
  | _ => none

/-- What follows the opening quote of a string. -/
def readString : List Char → Option (List Char × List Char)
  | [] => none
  | '"' :: rest => some ([], rest)
  | '\n' :: _ => none
  | '\r' :: _ => none
  | '\\' :: 'u' :: first :: second :: third :: fourth :: rest =>
      match hexCode first second third fourth with
      | none => none
      | some code =>
          if code.isValidChar then (readString rest).map fun read => (Char.ofNat code :: read.1, read.2) else none
  | '\\' :: character :: rest =>
      match escapedCharacter character with
      | none => none
      | some escaped => (readString rest).map fun read => (escaped :: read.1, read.2)
  | character :: rest => (readString rest).map fun read => (character :: read.1, read.2)

def isSpace (character : Char) : Bool := character = ' ' || character = '\n'

def skipSpace (text : List Char) : List Char := text.dropWhile isSpace

/-- The members in the order of their keys. -/
def sortMembers (members : JsonObject) : JsonObject := members.insertionSort fun first second => first.1 ≤ second.1

/-- A repeated keyword argument is a syntax error. -/
def dictionary (members : JsonObject) : Option Json :=
  if (members.map Prod.fst).Nodup then some (.object (sortMembers members)) else none

section Read

variable (names : Names) (numerals : Numerals)

mutual

/-- A value and the text after it. The fuel bounds the depth of the recursion. -/
def readValue : ℕ → List Char → Option (Json × List Char)
  | 0, _ => none
  | fuel + 1, text =>
      match skipSpace text with
      | [] => none
      | '"' :: rest => (readString rest).map fun read => (.string (String.ofList read.1), read.2)
      | '[' :: rest => (readItems fuel rest).map fun read => (.array read.1, read.2)
      | first :: rest =>
          if first.isDigit || first = '-' then
            (numerals.read (first :: rest.takeWhile isNumeral)).map fun value =>
              (.number value, rest.dropWhile isNumeral)
          else
            let word := (first :: rest).takeWhile names.isContinue
            let after := (first :: rest).dropWhile names.isContinue
            if word = ['T', 'r', 'u', 'e'] then some (.boolean true, after)
            else if word = ['F', 'a', 'l', 's', 'e'] then some (.boolean false, after)
            else if word = ['N', 'o', 'n', 'e'] then some (.null, after)
            else if word = ['d', 'i', 'c', 't'] then
              match after with
              | '(' :: members => do
                  let read ← readMembers fuel members
                  (dictionary read.1).map (·, read.2)
              | _ => none
            else none

/-- The values up to a closing bracket. -/
def readItems : ℕ → List Char → Option (List Json × List Char)
  | 0, _ => none
  | fuel + 1, text =>
      match skipSpace text with
      | ']' :: rest => some ([], rest)
      | text => do
          let value ← readValue fuel text
          match skipSpace value.2 with
          | ',' :: rest => (readItems fuel rest).map fun values => (value.1 :: values.1, values.2)
          | ']' :: rest => some ([value.1], rest)
          | _ => none

/-- The keyword arguments up to a closing parenthesis. -/
def readMembers : ℕ → List Char → Option (JsonObject × List Char)
  | 0, _ => none
  | fuel + 1, text =>
      match skipSpace text with
      | ')' :: rest => some ([], rest)
      | text =>
          let name := String.ofList (text.takeWhile names.isContinue)
          match text.dropWhile names.isContinue with
          | '=' :: rest =>
              if names.isName name then do
                let value ← readValue fuel rest
                match skipSpace value.2 with
                | ',' :: rest => (readMembers fuel rest).map fun members => ((name, value.1) :: members.1, members.2)
                | ')' :: rest => some ([(name, value.1)], rest)
                | _ => none
              else none
          | _ => none

end

end Read

/-! ### The keys of a value -/

mutual

/-- All keys, at any depth. -/
def KeysAre (good : String → Prop) : Json → Prop
  | .array items => KeysAreItems good items
  | .object members => KeysAreMembers good members
  | .null => True
  | .boolean _ => True
  | .number _ => True
  | .string _ => True

def KeysAreItems (good : String → Prop) : List Json → Prop
  | [] => True
  | item :: rest => KeysAre good item ∧ KeysAreItems good rest

def KeysAreMembers (good : String → Prop) : JsonObject → Prop
  | [] => True
  | (key, value) :: rest => good key ∧ KeysAre good value ∧ KeysAreMembers good rest

end

theorem keysAreMembers_iff {good : String → Prop} {members : JsonObject} :
    KeysAreMembers good members ↔ ∀ member ∈ members, good member.1 ∧ KeysAre good member.2 := by
  induction members with
  | nil => simp [KeysAreMembers]
  | cons member rest inductionHypothesis =>
      rw [KeysAreMembers, inductionHypothesis, List.forall_mem_cons, and_assoc]

mutual

theorem keysAre_and {first second : String → Prop} : ∀ value,
    KeysAre (fun key => first key ∧ second key) value ↔ KeysAre first value ∧ KeysAre second value
  | .null => by simp [KeysAre]
  | .boolean _ => by simp [KeysAre]
  | .number _ => by simp [KeysAre]
  | .string _ => by simp [KeysAre]
  | .array items => keysAreItems_and items
  | .object members => keysAreMembers_and members

theorem keysAreItems_and {first second : String → Prop} : ∀ items,
    KeysAreItems (fun key => first key ∧ second key) items ↔ KeysAreItems first items ∧ KeysAreItems second items
  | [] => by simp [KeysAreItems]
  | item :: rest => by
      rw [KeysAreItems, KeysAreItems, KeysAreItems, keysAre_and item, keysAreItems_and rest]
      exact and_and_and_comm

theorem keysAreMembers_and {first second : String → Prop} : ∀ members,
    KeysAreMembers (fun key => first key ∧ second key) members ↔
      KeysAreMembers first members ∧ KeysAreMembers second members
  | [] => by simp [KeysAreMembers]
  | (key, value) :: rest => by
      rw [KeysAreMembers, KeysAreMembers, KeysAreMembers, keysAre_and value, keysAreMembers_and rest]
      tauto

end

theorem mem_sortMembers {members : JsonObject} {member : String × Json} :
    member ∈ sortMembers members ↔ member ∈ members :=
  List.mem_insertionSort _

section KeysRead

variable {names : Names} {numerals : Numerals}

theorem keysAre_of_dictionary {good : String → Prop} {members : JsonObject} {value : Json}
    (made : dictionary members = some value) (keys : KeysAreMembers good members) : KeysAre good value := by
  unfold dictionary at made
  split at made
  · rw [Option.some.injEq] at made
    subst made
    rw [keysAreMembers_iff] at keys
    rw [KeysAre, keysAreMembers_iff]
    intro member isMember
    exact keys member (mem_sortMembers.mp isMember)
  · cases made

/-- Whatever is read has names as keys. -/
theorem keysAre_of_readValue (fuel : ℕ) :
    (∀ text value, readValue names numerals fuel text = some value → KeysAre (names.isName ·) value.1) ∧
    (∀ text values, readItems names numerals fuel text = some values → KeysAreItems (names.isName ·) values.1) ∧
    (∀ text members, readMembers names numerals fuel text = some members →
      KeysAreMembers (names.isName ·) members.1) := by
  induction fuel with
  | zero =>
      refine ⟨?_, ?_, ?_⟩ <;> rintro _ _ ⟨⟩
  | succ fuel inductionHypothesis =>
      obtain ⟨ofValue, ofItems, ofMembers⟩ := inductionHypothesis
      refine ⟨?_, ?_, ?_⟩
      · intro text value read
        unfold readValue at read
        split at read
        · cases read
        · obtain ⟨_, _, rfl⟩ := Option.map_eq_some_iff.mp read
          trivial
        · obtain ⟨items, itemsRead, rfl⟩ := Option.map_eq_some_iff.mp read
          exact ofItems _ _ itemsRead
        · split at read
          · obtain ⟨_, _, rfl⟩ := Option.map_eq_some_iff.mp read
            trivial
          · dsimp only at read
            split at read
            · cases read
              trivial
            · split at read
              · cases read
                trivial
              · split at read
                · cases read
                  trivial
                · split at read
                  · split at read
                    · obtain ⟨members, membersRead, made⟩ := Option.bind_eq_some_iff.mp read
                      obtain ⟨object, isObject, rfl⟩ := Option.map_eq_some_iff.mp made
                      exact keysAre_of_dictionary isObject (ofMembers _ _ membersRead)
                    · cases read
                  · cases read
      · intro text values read
        unfold readItems at read
        split at read
        · cases read
          trivial
        · obtain ⟨value, valueRead, read⟩ := Option.bind_eq_some_iff.mp read
          have isValue := ofValue _ _ valueRead
          split at read
          · obtain ⟨others, othersRead, rfl⟩ := Option.map_eq_some_iff.mp read
            exact ⟨isValue, ofItems _ _ othersRead⟩
          · cases read
            exact ⟨isValue, trivial⟩
          · cases read
      · intro text members read
        unfold readMembers at read
        split at read
        · cases read
          trivial
        · dsimp only at read
          split at read
          · split at read
            · rename_i isName
              obtain ⟨value, valueRead, read⟩ := Option.bind_eq_some_iff.mp read
              have isValue := ofValue _ _ valueRead
              split at read
              · obtain ⟨others, othersRead, rfl⟩ := Option.map_eq_some_iff.mp read
                exact ⟨isName, isValue, ofMembers _ _ othersRead⟩
              · cases read
                exact ⟨isName, isValue, trivial⟩
              · cases read
            · cases read
          · cases read

end KeysRead

/-! ### Reading what is written

A value is followed by a comma or a new line, and its members or items stand on lines of their own. -/

/-- What follows a value. -/
def Ends (rest : List Char) : Prop := ∃ first tail, rest = first :: tail ∧ (first = ',' ∨ first = '\n')

section Written

variable {names : Names} {numerals : Numerals}

variable (names numerals) in
/-- The text is read as the value, with fuel for each of its characters. -/
def Reads (text : List Char) (value : Json) : Prop :=
  ∀ fuel rest, text.length ≤ fuel → Ends rest → readValue names numerals fuel (text ++ rest) = some (value, rest)

theorem skipSpace_append {spaces : List Char} (all : ∀ character ∈ spaces, isSpace character = true)
    (text : List Char) : skipSpace (spaces ++ text) = skipSpace text := by
  rw [skipSpace, skipSpace, List.dropWhile_append_of_pos all]

theorem skipSpace_skipSpace (text : List Char) : skipSpace (skipSpace text) = skipSpace text := by
  rw [skipSpace, skipSpace, List.dropWhile_idempotent]

theorem readValue_congr {fuel : ℕ} {first second : List Char} (same : skipSpace first = skipSpace second) :
    readValue names numerals fuel first = readValue names numerals fuel second := by
  cases fuel with
  | zero => rfl
  | succ fuel => rw [readValue, readValue, same]

theorem reads_spaced {spaces text : List Char} {value : Json}
    (all : ∀ character ∈ spaces, isSpace character = true) (reads : Reads names numerals text value) :
    Reads names numerals (spaces ++ text) value := by
  intro fuel rest enough ends
  rw [List.append_assoc, readValue_congr (skipSpace_append all _)]
  apply reads fuel rest _ ends
  rw [List.length_append] at enough
  omega

theorem not_isContinue_closing : names.isContinue ']' = false := by
  simp [Names.isContinue]

/-- No value begins with a closing bracket. -/
theorem readValue_closing {fuel : ℕ} {text rest : List Char} (closing : skipSpace text = ']' :: rest) :
    readValue names numerals fuel text = none := by
  cases fuel with
  | zero => rfl
  | succ fuel =>
      have noWord : (']' :: rest).takeWhile names.isContinue = [] :=
        List.takeWhile_cons_of_neg (by simp [not_isContinue_closing])
      rw [readValue, closing]
      simp [noWord]

theorem readItems_succ {fuel : ℕ} {text after : List Char} {value : Json}
    (read : readValue names numerals fuel text = some (value, after)) :
    readItems names numerals (fuel + 1) text = match skipSpace after with
      | ',' :: rest => (readItems names numerals fuel rest).map fun values => (value :: values.1, values.2)
      | ']' :: rest => some ([value], rest)
      | _ => none := by
  rw [readItems]
  split
  · rename_i rest closing
    rw [readValue_closing closing] at read
    cases read
  · have same : readValue names numerals fuel (skipSpace text) = some (value, after) := by
      rw [readValue_congr (skipSpace_skipSpace text)]
      exact read
    rw [same]
    rfl

theorem readItems_comma {fuel : ℕ} {text after rest : List Char} {value : Json}
    (read : readValue names numerals fuel text = some (value, after)) (comma : skipSpace after = ',' :: rest) :
    readItems names numerals (fuel + 1) text =
      (readItems names numerals fuel rest).map fun values => (value :: values.1, values.2) := by
  rw [readItems_succ read, comma]
  rfl

theorem readItems_last {fuel : ℕ} {text after rest : List Char} {value : Json}
    (read : readValue names numerals fuel text = some (value, after)) (closing : skipSpace after = ']' :: rest) :
    readItems names numerals (fuel + 1) text = some ([value], rest) := by
  rw [readItems_succ read, closing]
  rfl

/-- Texts with a comma between any two. -/
def joined : List (List Char) → List Char
  | [] => []
  | [text] => text
  | text :: next :: rest => text ++ ',' :: joined (next :: rest)

theorem readItems_joined {texts : List (List Char)} {values : List Json}
    (each : List.Forall₂ (Reads names numerals) texts values) (nonempty : texts ≠ []) {spaces : List Char}
    (all : ∀ character ∈ spaces, isSpace character = true) {fuel : ℕ}
    (enough : (joined texts ++ '\n' :: (spaces ++ [']'])).length ≤ fuel) (rest : List Char) :
    readItems names numerals fuel (joined texts ++ '\n' :: (spaces ++ ']' :: rest)) = some (values, rest) := by
  induction each generalizing fuel with
  | nil => exact absurd rfl nonempty
  | @cons text value others otherValues reads eachOther inductionHypothesis =>
      cases fuel with
      | zero => simp at enough
      | succ fuel =>
          have skipped : skipSpace ('\n' :: (spaces ++ ']' :: rest)) = ']' :: rest := by
            rw [← List.cons_append, skipSpace_append (List.forall_mem_cons.mpr ⟨by decide, all⟩)]
            rfl
          cases others with
          | nil =>
              cases eachOther
              have read := reads fuel ('\n' :: (spaces ++ ']' :: rest)) (by simp [joined] at enough; omega)
                ⟨_, _, rfl, Or.inr rfl⟩
              rw [joined, readItems_last read skipped]
          | cons other rest' =>
              have read := reads fuel (',' :: (joined (other :: rest') ++ '\n' :: (spaces ++ ']' :: rest)))
                (by simp [joined] at enough; omega) ⟨_, _, rfl, Or.inl rfl⟩
              have later := @inductionHypothesis (List.cons_ne_nil _ _) fuel
                (by simp only [joined, List.length_append, List.length_cons] at enough ⊢; omega)
              have comma : skipSpace (',' :: (joined (other :: rest') ++ '\n' :: (spaces ++ ']' :: rest))) =
                  ',' :: (joined (other :: rest') ++ '\n' :: (spaces ++ ']' :: rest)) := rfl
              have goal := readItems_comma read comma
              rw [later] at goal
              rw [joined, List.append_assoc, List.cons_append]
              exact goal

theorem readValue_list (fuel : ℕ) (text : List Char) : readValue names numerals (fuel + 1) ('[' :: text) =
    (readItems names numerals fuel text).map fun read => (.array read.1, read.2) :=
  rfl

/-- A list with its items on lines of their own. -/
theorem reads_list {texts : List (List Char)} {values : List Json}
    (each : List.Forall₂ (Reads names numerals) texts values) (nonempty : texts ≠ []) {spaces : List Char}
    (all : ∀ character ∈ spaces, isSpace character = true) :
    Reads names numerals ('[' :: (joined texts ++ '\n' :: (spaces ++ [']']))) (.array values) := by
  intro fuel rest enough _
  cases fuel with
  | zero => simp at enough
  | succ fuel =>
      have items := readItems_joined each nonempty all (by simpa using enough) rest
      have shape : '[' :: (joined texts ++ '\n' :: (spaces ++ [']'])) ++ rest =
          '[' :: (joined texts ++ '\n' :: (spaces ++ ']' :: rest)) := by simp
      rw [shape, readValue_list, items]
      rfl

theorem reads_emptyList : Reads names numerals ['[', ']'] (.array []) := by
  intro fuel rest enough _
  match fuel, enough with
  | fuel + 2, _ => rfl

/-! Keyword arguments. -/

theorem isContinue_of_isStart {character : Char} (start : names.isStart character = true) :
    names.isContinue character = true := by
  unfold Names.isStart at start
  unfold Names.isContinue
  unfold Char.isAlphanum
  simp only [Bool.or_eq_true, Bool.and_eq_true] at start ⊢
  tauto

/-- A name is a word that does not begin like a space or a closing parenthesis. -/
theorem isName_word {name : String} (isName : names.isName name = true) :
    (∀ character ∈ name.toList, names.isContinue character = true) ∧
      ∃ first rest, name.toList = first :: rest ∧ names.isStart first = true := by
  unfold Names.isName at isName
  split at isName
  · cases isName
  · rename_i first rest spelled
    simp only [Bool.and_eq_true, List.all_eq_true] at isName
    rw [spelled]
    exact ⟨List.forall_mem_cons.mpr ⟨isContinue_of_isStart isName.1.1.1.1, isName.1.1.1.2⟩, first, rest, rfl,
      isName.1.1.1.1⟩

theorem not_isContinue_equals : names.isContinue '=' = false := by
  simp [Names.isContinue]

/-- One keyword argument on a line of its own. -/
def argument (spaces : List Char) (entry : String × List Char) : List Char :=
  '\n' :: (spaces ++ (entry.1.toList ++ '=' :: entry.2))

theorem skipSpace_argument {spaces : List Char} (all : ∀ character ∈ spaces, isSpace character = true)
    {entry : String × List Char} (isName : names.isName entry.1 = true) (rest : List Char) :
    skipSpace (argument spaces entry ++ rest) = entry.1.toList ++ '=' :: (entry.2 ++ rest) := by
  obtain ⟨_, first, others, spelled, start⟩ := isName_word isName
  have notSpace : ¬isSpace first = true := by
    intro space
    have isOne : first = ' ' ∨ first = '\n' := by simpa [isSpace] using space
    rcases isOne with rfl | rfl <;> simp [Names.isStart] at start
  rw [argument, ← List.cons_append, List.append_assoc, skipSpace_append (List.forall_mem_cons.mpr ⟨by decide, all⟩),
    List.append_assoc, spelled, skipSpace, List.cons_append, List.cons_append, List.dropWhile_cons_of_neg notSpace]
  rfl

theorem readMembers_succ {fuel : ℕ} {spaces : List Char} (all : ∀ character ∈ spaces, isSpace character = true)
    {entry : String × List Char} (isName : names.isName entry.1 = true) {rest after : List Char} {value : Json}
    (read : readValue names numerals fuel (entry.2 ++ rest) = some (value, after)) :
    readMembers names numerals (fuel + 1) (argument spaces entry ++ rest) = match skipSpace after with
      | ',' :: rest => (readMembers names numerals fuel rest).map fun members =>
          ((entry.1, value) :: members.1, members.2)
      | ')' :: rest => some ([(entry.1, value)], rest)
      | _ => none := by
  obtain ⟨word, first, others, spelled, start⟩ := isName_word isName
  have taken : (entry.1.toList ++ '=' :: (entry.2 ++ rest)).takeWhile names.isContinue = entry.1.toList := by
    rw [List.takeWhile_append_of_pos word, List.takeWhile_cons_of_neg (by simp [not_isContinue_equals]), List.append_nil]
  have dropped : (entry.1.toList ++ '=' :: (entry.2 ++ rest)).dropWhile names.isContinue = '=' :: (entry.2 ++ rest) := by
    rw [List.dropWhile_append_of_pos word, List.dropWhile_cons_of_neg (by simp [not_isContinue_equals])]
  rw [readMembers, skipSpace_argument all isName]
  split
  · rename_i closing
    rw [spelled, List.cons_append, List.cons.injEq] at closing
    rw [closing.1] at start
    simp [Names.isStart] at start
  · rw [taken, dropped, String.ofList_toList]
    refine (if_pos isName).trans ?_
    rw [read]
    rfl

theorem readMembers_joined {spaces inner : List Char} (all : ∀ character ∈ spaces, isSpace character = true)
    (allInner : ∀ character ∈ inner, isSpace character = true) {entries : List (String × List Char)}
    {members : JsonObject} (each : List.Forall₂ (fun (entry : String × List Char) (member : String × Json) =>
      entry.1 = member.1 ∧ names.isName entry.1 = true ∧ Reads names numerals entry.2 member.2) entries members)
    (nonempty : entries ≠ []) {fuel : ℕ}
    (enough : (joined (entries.map (argument inner)) ++ '\n' :: (spaces ++ [')'])).length ≤ fuel) (rest : List Char) :
    readMembers names numerals fuel (joined (entries.map (argument inner)) ++ '\n' :: (spaces ++ ')' :: rest)) =
      some (members, rest) := by
  induction each generalizing fuel with
  | nil => exact absurd rfl nonempty
  | @cons entry member others otherMembers first eachOther inductionHypothesis =>
      obtain ⟨sameKey, isName, reads⟩ := first
      cases fuel with
      | zero => simp at enough
      | succ fuel =>
          have skipped : skipSpace ('\n' :: (spaces ++ ')' :: rest)) = ')' :: rest := by
            rw [← List.cons_append, skipSpace_append (List.forall_mem_cons.mpr ⟨by decide, all⟩)]
            rfl
          cases others with
          | nil =>
              cases eachOther
              have read := reads fuel ('\n' :: (spaces ++ ')' :: rest))
                (by simp [joined, argument] at enough; omega) ⟨_, _, rfl, Or.inr rfl⟩
              rw [List.map_cons, List.map_nil, joined, readMembers_succ allInner isName read, skipped, sameKey]
              rfl
          | cons other rest' =>
              have read := reads fuel
                (',' :: (joined ((other :: rest').map (argument inner)) ++ '\n' :: (spaces ++ ')' :: rest)))
                (by simp [joined, argument] at enough; omega) ⟨_, _, rfl, Or.inl rfl⟩
              have later := @inductionHypothesis (List.cons_ne_nil _ _) fuel
                (by simp only [joined, List.map_cons, List.length_append, List.length_cons] at enough ⊢; omega)
              have comma : ∀ text, skipSpace (',' :: text) = ',' :: text := fun _ => rfl
              have shape : joined ((entry :: other :: rest').map (argument inner)) ++ '\n' :: (spaces ++ ')' :: rest) =
                  argument inner entry ++
                    ',' :: (joined ((other :: rest').map (argument inner)) ++ '\n' :: (spaces ++ ')' :: rest)) := by
                simp [joined]
              have goal := readMembers_succ allInner isName read
              rw [comma] at goal
              rw [shape, goal]
              refine (congrArg (Option.map _) later).trans ?_
              rw [sameKey]
              rfl

theorem readValue_dict (fuel : ℕ) (text : List Char) :
    readValue names numerals (fuel + 1) ('d' :: 'i' :: 'c' :: 't' :: '(' :: text) =
      (readMembers names numerals fuel text).bind fun read => (dictionary read.1).map (·, read.2) :=
  rfl

/-- A call of `dict` with its keyword arguments on lines of their own. -/
theorem reads_dict {spaces inner : List Char} (all : ∀ character ∈ spaces, isSpace character = true)
    (allInner : ∀ character ∈ inner, isSpace character = true) {entries : List (String × List Char)}
    {members : JsonObject} (each : List.Forall₂ (fun (entry : String × List Char) (member : String × Json) =>
      entry.1 = member.1 ∧ names.isName entry.1 = true ∧ Reads names numerals entry.2 member.2) entries members)
    (nonempty : entries ≠ []) (distinct : (members.map Prod.fst).Nodup) :
    Reads names numerals ('d' :: 'i' :: 'c' :: 't' :: '(' :: (joined (entries.map (argument inner)) ++
      '\n' :: (spaces ++ [')']))) (.object (sortMembers members)) := by
  intro fuel rest enough _
  cases fuel with
  | zero => simp at enough
  | succ fuel =>
      have enoughInner : (joined (entries.map (argument inner)) ++ '\n' :: (spaces ++ [')'])).length ≤ fuel := by
        simp only [List.length_cons] at enough
        omega
      have arguments := readMembers_joined all allInner each nonempty enoughInner rest
      have shape : 'd' :: 'i' :: 'c' :: 't' :: '(' :: (joined (entries.map (argument inner)) ++
            '\n' :: (spaces ++ [')'])) ++ rest =
          'd' :: 'i' :: 'c' :: 't' :: '(' :: (joined (entries.map (argument inner)) ++
            '\n' :: (spaces ++ ')' :: rest)) := by simp
      rw [shape, readValue_dict, arguments, Option.bind_some, dictionary, if_pos distinct]
      rfl

theorem reads_emptyDict : Reads names numerals ['d', 'i', 'c', 't', '(', ')'] (.object []) := by
  intro fuel rest enough _
  match fuel, enough with
  | fuel + 2, _ => rfl

/-! Scalars. -/

theorem reads_keywords :
    Reads names numerals ['T', 'r', 'u', 'e'] (.boolean true) ∧
      Reads names numerals ['F', 'a', 'l', 's', 'e'] (.boolean false) ∧
      Reads names numerals ['N', 'o', 'n', 'e'] .null := by
  refine ⟨?_, ?_, ?_⟩ <;> rintro fuel _ enough ⟨_, tail, rfl, rfl | rfl⟩ <;>
    match fuel, enough with
    | fuel + 1, _ => rfl

theorem reads_number (value : ℚ) : Reads names numerals (numerals.text value) (.number value) := by
  intro fuel rest enough ends
  obtain ⟨first, others, spelled, start, numeral⟩ := numerals.shape value
  have taken : (others ++ rest).takeWhile isNumeral = others := by
    obtain ⟨_, tail, rfl, rfl | rfl⟩ := ends <;>
      rw [List.takeWhile_append_of_pos numeral, List.takeWhile_cons_of_neg (by decide), List.append_nil]
  have dropped : (others ++ rest).dropWhile isNumeral = rest := by
    obtain ⟨_, tail, rfl, rfl | rfl⟩ := ends <;>
      rw [List.dropWhile_append_of_pos numeral, List.dropWhile_cons_of_neg (by decide)]
  have apart : ∀ other : Char, other.isDigit = false → other ≠ '-' → first ≠ other := by
    rintro other notDigit notMinus rfl
    rcases start with digit | minus
    · rw [notDigit] at digit
      cases digit
    · exact notMinus minus
  have notSpace : ¬isSpace first = true := by
    simp [isSpace, apart ' ' (by decide) (by decide), apart '\n' (by decide) (by decide)]
  have skipped : skipSpace (first :: (others ++ rest)) = first :: (others ++ rest) :=
    List.dropWhile_cons_of_neg notSpace
  have isStart : (first.isDigit || decide (first = '-')) = true := by
    simpa using start
  cases fuel with
  | zero => simp [spelled] at enough
  | succ fuel =>
      rw [spelled, List.cons_append, readValue, skipped]
      split
      · rename_i impossible
        cases impossible
      · rename_i same
        exact absurd (List.cons.inj same).1 (apart '"' (by decide) (by decide))
      · rename_i same
        exact absurd (List.cons.inj same).1 (apart '[' (by decide) (by decide))
      · rename_i same
        obtain ⟨rfl, rfl⟩ := List.cons.inj same
        rw [if_pos isStart, taken, dropped, ← spelled, numerals.reads]
        rfl

end Written

/-! ### Strings as JSON writes them -/

def hexDigit (value : ℕ) : Char := Char.ofNat (if value < 10 then 48 + value else 87 + value)

def escape (character : Char) : List Char :=
  if character = '"' then ['\\', '"']
  else if character = '\\' then ['\\', '\\']
  else if character = '\x08' then ['\\', 'b']
  else if character = '\x0c' then ['\\', 'f']
  else if character = '\n' then ['\\', 'n']
  else if character = '\r' then ['\\', 'r']
  else if character = '\t' then ['\\', 't']
  else if character.toNat < 32 then
    ['\\', 'u', '0', '0', hexDigit (character.toNat / 16), hexDigit (character.toNat % 16)]
  else [character]

/-- `JSON.stringify` of a string. -/
def jsonString (text : String) : List Char := '"' :: (text.toList.flatMap escape ++ ['"'])

theorem hexCode_control : ∀ value < 32,
    hexCode '0' '0' (hexDigit (value / 16)) (hexDigit (value % 16)) = some value := by
  decide

theorem readString_escape (character : Char) (rest : List Char) :
    readString (escape character ++ rest) = (readString rest).map fun read => (character :: read.1, read.2) := by
  unfold escape
  split
  · subst_vars
    rfl
  split
  · subst_vars
    rfl
  split
  · subst_vars
    rfl
  split
  · subst_vars
    rfl
  split
  · subst_vars
    rfl
  split
  · subst_vars
    rfl
  split
  · subst_vars
    rfl
  split
  · rename_i control
    have code := hexCode_control character.toNat control
    have isValid : character.toNat.isValidChar := character.valid
    simp only [List.cons_append, List.nil_append]
    rw [readString, code]
    simp [isValid]
  · rename_i notQuote notBackslash _ _ notNewline notReturn _ _
    rw [List.cons_append, List.nil_append, readString.eq_def]
    split <;> simp_all

theorem readString_quoted (text rest : List Char) :
    readString (text.flatMap escape ++ '"' :: rest) = some (text, rest) := by
  induction text with
  | nil => rfl
  | cons character others inductionHypothesis =>
      rw [List.flatMap_cons, List.append_assoc, readString_escape, inductionHypothesis]
      rfl

theorem reads_string {names : Names} {numerals : Numerals} (text : String) :
    Reads names numerals (jsonString text) (.string text) := by
  intro fuel rest enough _
  cases fuel with
  | zero => simp [jsonString] at enough
  | succ fuel =>
      have shape : jsonString text ++ rest = '"' :: (text.toList.flatMap escape ++ '"' :: rest) := by
        simp [jsonString]
      have read : readValue names numerals (fuel + 1) ('"' :: (text.toList.flatMap escape ++ '"' :: rest)) =
          (readString (text.toList.flatMap escape ++ '"' :: rest)).map fun read =>
            (.string (String.ofList read.1), read.2) := rfl
      rw [shape, read, readString_quoted, Option.map_some, String.ofList_toList]

end PythonLiteral
