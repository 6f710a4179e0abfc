/-
Module: Zigopt.Lib.TextArray
Layer: Lib
Purpose: The literals of a one-dimensional `text[]`, as Postgres reads them: one character at a time, with
  elements in quotes, in which a backslash takes the next character as it is, and elements without.
Main exports: TextArray.State, TextArray.step, TextArray.parse, TextArray.ReadsAs, TextArray.parse_elements
-/
import Mathlib.Data.List.DropRight
import Mathlib.Data.List.Forall2

namespace TextArray

/-- How far a literal has been read, with the elements that are complete. NULL is no text. -/
inductive State where
  | outside
  | first
  | element (done : List (Option String))
  | quoted (done : List (Option String)) (body : List Char)
  | quotedEscape (done : List (Option String)) (body : List Char)
  | afterQuote (done : List (Option String))
  | plain (done : List (Option String)) (body : List Char) (escaped : Bool)
  | plainEscape (done : List (Option String)) (body : List Char)
  | closed (done : List (Option String))
deriving DecidableEq, Repr

/-- `array_isspace`. -/
def isSpace (character : Char) : Bool :=
  character = ' ' || (9 ≤ character.toNat && character.toNat ≤ 13)

/-- An element without quotes: the whitespace after it is dropped, and `NULL` is no text. -/
def plainElement (body : List Char) (escaped : Bool) : Option String :=
  let content := body.rdropWhile isSpace
  if !escaped && content.map Char.toLower = ['n', 'u', 'l', 'l'] then none else some (String.ofList content)

/-- The first character of an element. -/
def startElement (done : List (Option String)) (character : Char) : Option State :=
  if isSpace character then some (.element done)
  else
    match character with
    | '"' => some (.quoted done [])
    | '\\' => some (.plainEscape done [])
    | '{' | '}' | ',' => none
    | other => some (.plain done [other] false)

/-- One character of the literal of a text array. -/
def step : State → Char → Option State
  | .outside, character =>
      if isSpace character then some .outside else if character = '{' then some .first else none
  | .first, character =>
      if character = '}' then some (.closed [])
      else if isSpace character then some .first
      else startElement [] character
  | .element done, character => startElement done character
  | .quoted done body, character =>
      if character = '"' then some (.afterQuote (done ++ [some (String.ofList body)]))
      else if character = '\\' then some (.quotedEscape done body)
      else some (.quoted done (body ++ [character]))
  | .quotedEscape done body, character => some (.quoted done (body ++ [character]))
  | .afterQuote done, character =>
      if character = ',' then some (.element done)
      else if character = '}' then some (.closed done)
      else if isSpace character then some (.afterQuote done)
      else none
  | .plain done body escaped, character =>
      if character = ',' then some (.element (done ++ [plainElement body escaped]))
      else if character = '}' then some (.closed (done ++ [plainElement body escaped]))
      else if character = '"' ∨ character = '{' then none
      else if character = '\\' then some (.plainEscape done body)
      else some (.plain done (body ++ [character]) escaped)
  | .plainEscape done body, character => some (.plain done (body ++ [character]) true)
  | .closed done, character => if isSpace character then some (.closed done) else none

/-- The state after a text, none once it is refused. -/
def run (state : State) (characters : List Char) : Option State :=
  characters.foldlM step state

/-- The elements of a literal, of which an unquoted NULL is none. -/
def parse (literal : List Char) : Option (List (Option String)) :=
  match run .outside literal with
  | some (.closed done) => some done
  | _ => none

theorem run_append (state : State) (front back : List Char) :
    run state (front ++ back) = (run state front).bind fun next => run next back :=
  List.foldlM_append

/-- What completes an element: a comma after it leads to the next element, and a brace ends the literal. -/
structure Completes (state : State) (done : List (Option String)) : Prop where
  comma : step state ',' = some (.element done)
  brace : step state '}' = some (.closed done)

/-- The characters stand for one element, wherever it starts. -/
def ReadsAs (characters : List Char) (text : String) : Prop :=
  ∀ done, ∃ final, Completes final (done ++ [some text]) ∧ run (.element done) characters = some final ∧
    (done = [] → run .first characters = some final)

/-- Elements between commas. -/
def separated : List (List Char) → List Char
  | [] => []
  | [last] => last
  | first :: second :: rest => first ++ ',' :: separated (second :: rest)

theorem run_separated {elements : List (List Char)} {texts : List String}
    (reads : List.Forall₂ ReadsAs elements texts) (nonempty : elements ≠ []) (done : List (Option String)) :
    ∃ final, Completes final (done ++ texts.map some) ∧ run (.element done) (separated elements) = some final := by
  induction reads generalizing done with
  | nil => exact absurd rfl nonempty
  | @cons characters text elements texts readsFirst readsRest inductionHypothesis =>
      obtain ⟨afterFirst, completes, ran, _⟩ := readsFirst done
      cases readsRest with
      | nil => exact ⟨afterFirst, completes, ran⟩
      | @cons second secondText others otherTexts readsSecond readsOthers =>
          obtain ⟨final, completesAll, ranRest⟩ :=
            inductionHypothesis (List.cons_ne_nil second others) (done ++ [some text])
          refine ⟨final, by simpa using completesAll, ?_⟩
          rw [separated, run_append, ran, Option.bind_some, run, List.foldlM_cons, completes.comma]
          exact ranRest

/-- The literal of elements that are read is their list. -/
theorem parse_elements {elements : List (List Char)} {texts : List String}
    (reads : List.Forall₂ ReadsAs elements texts) :
    parse ('{' :: separated elements ++ ['}']) = some (texts.map some) := by
  have opened : ∀ characters, run .outside ('{' :: characters) = run .first characters := fun _ => rfl
  cases reads with
  | nil => rfl
  | @cons characters text elements texts readsFirst readsRest =>
      obtain ⟨afterFirst, completes, _, ranFirst⟩ := readsFirst []
      have ranFirst := ranFirst rfl
      have closes : ∀ {final : State} {done : List (Option String)}, Completes final done →
          run final ['}'] = some (.closed done) := by
        intro final done completes
        rw [run, List.foldlM_cons, completes.brace]
        rfl
      have finished : run .first (separated (characters :: elements) ++ ['}']) =
          some (.closed ((text :: texts).map some)) := by
        cases readsRest with
        | nil =>
            rw [separated, run_append, ranFirst, Option.bind_some, closes completes]
            rfl
        | @cons second secondText others otherTexts readsSecond readsOthers =>
            obtain ⟨final, completesAll, ranRest⟩ :=
              run_separated (List.Forall₂.cons readsSecond readsOthers) (List.cons_ne_nil second others)
                ([] ++ [some text])
            have afterComma : run afterFirst (',' :: separated (second :: others)) = some final := by
              rw [run, List.foldlM_cons, completes.comma]
              exact ranRest
            rw [separated, run_append, run_append, ranFirst, Option.bind_some, afterComma, Option.bind_some,
              closes completesAll]
            rfl
      rw [parse, List.cons_append, opened, finished]

/-! ### Elements in quotes -/

theorem completes_afterQuote (done : List (Option String)) : Completes (.afterQuote done) done :=
  ⟨rfl, rfl⟩

/-- A body is read in quotes if its characters are, up to the closing quote. -/
theorem readsAs_quoted {body content : List Char}
    (reads : ∀ done, run (.quoted done []) body = some (.quoted done content)) :
    ReadsAs ('"' :: body ++ ['"']) (String.ofList content) := by
  intro done
  have finished : run (.quoted done []) (body ++ ['"']) =
      some (.afterQuote (done ++ [some (String.ofList content)])) := by
    rw [run_append, reads done]
    rfl
  refine ⟨.afterQuote (done ++ [some (String.ofList content)]), completes_afterQuote _, finished, ?_⟩
  rintro rfl
  exact finished

/-- A character that needs no escape. -/
theorem run_quoted_plain {character : Char} (notQuote : character ≠ '"') (notBackslash : character ≠ '\\')
    (done : List (Option String)) (body : List Char) :
    run (.quoted done body) [character] = some (.quoted done (body ++ [character])) := by
  simp [run, step, notQuote, notBackslash]

theorem run_quoted_plains {characters : List Char}
    (plain : ∀ character ∈ characters, character ≠ '"' ∧ character ≠ '\\') (done : List (Option String))
    (body : List Char) : run (.quoted done body) characters = some (.quoted done (body ++ characters)) := by
  induction characters generalizing body with
  | nil => simp [run]
  | cons first rest inductionHypothesis =>
      obtain ⟨notQuote, notBackslash⟩ := plain first List.mem_cons_self
      rw [← List.singleton_append, run_append, run_quoted_plain notQuote notBackslash, Option.bind_some,
        inductionHypothesis fun character later => plain character (List.mem_cons_of_mem first later)]
      simp

/-- A backslash takes the next character as it is. -/
theorem run_quoted_escape (character : Char) (done : List (Option String)) (body : List Char) :
    run (.quoted done body) ['\\', character] = some (.quoted done (body ++ [character])) := rfl

/-! ### Elements without quotes -/

/-- Characters without meaning in a literal. -/
def isPlain (character : Char) : Bool :=
  !isSpace character && character != ',' && character != '{' && character != '}' && character != '"' &&
    character != '\\'

theorem run_plain {characters : List Char} (plain : ∀ character ∈ characters, isPlain character = true)
    (done : List (Option String)) (body : List Char) (escaped : Bool) :
    run (.plain done body escaped) characters = some (.plain done (body ++ characters) escaped) := by
  induction characters generalizing body with
  | nil => simp [run]
  | cons first rest inductionHypothesis =>
      have isFirst := plain first List.mem_cons_self
      simp only [isPlain, Bool.and_eq_true, bne_iff_ne, ne_eq] at isFirst
      obtain ⟨⟨⟨⟨⟨_, notComma⟩, notOpen⟩, notClose⟩, notQuote⟩, notBackslash⟩ := isFirst
      have stepped : step (.plain done body escaped) first = some (.plain done (body ++ [first]) escaped) := by
        simp [step, notComma, notOpen, notClose, notQuote, notBackslash]
      have later := inductionHypothesis (fun character member => plain character (List.mem_cons_of_mem first member))
        (body ++ [first])
      rw [run, List.foldlM_cons, stepped]
      simpa [run] using later

/-- Digits, say, are read as they are. -/
theorem readsAs_plain {first : Char} {rest : List Char} (plain : ∀ character ∈ first :: rest, isPlain character = true)
    (notNull : (first :: rest).map Char.toLower ≠ ['n', 'u', 'l', 'l']) :
    ReadsAs (first :: rest) (String.ofList (first :: rest)) := by
  intro done
  have isFirst := plain first List.mem_cons_self
  simp only [isPlain, Bool.and_eq_true, bne_iff_ne, ne_eq, Bool.not_eq_true'] at isFirst
  obtain ⟨⟨⟨⟨⟨notSpace, notComma⟩, notOpen⟩, notClose⟩, notQuote⟩, notBackslash⟩ := isFirst
  have started : startElement done first = some (.plain done [first] false) := by
    unfold startElement
    rw [if_neg (by simp [notSpace])]
    split
    · exact absurd rfl notQuote
    · exact absurd rfl notBackslash
    · exact absurd rfl notOpen
    · exact absurd rfl notClose
    · exact absurd rfl notComma
    · rfl
  have ran : run (.plain done [first] false) rest = some (.plain done (first :: rest) false) :=
    run_plain (fun character member => plain character (List.mem_cons_of_mem first member)) done [first] false
  have content : (first :: rest).rdropWhile isSpace = first :: rest := by
    rw [List.rdropWhile_eq_self_iff]
    intro nonempty
    have lastPlain := plain _ (List.getLast_mem nonempty)
    simp only [isPlain, Bool.and_eq_true, Bool.not_eq_true'] at lastPlain
    simp [lastPlain.1.1.1.1.1]
  have element : plainElement (first :: rest) false = some (String.ofList (first :: rest)) := by
    rw [plainElement, content, if_neg (by simpa using notNull)]
  refine ⟨.plain done (first :: rest) false, ⟨?_, ?_⟩, ?_, ?_⟩
  · rw [← element]
    rfl
  · rw [← element]
    rfl
  · rw [run, List.foldlM_cons]
    change (startElement done first).bind _ = _
    rw [started]
    exact ran
  · rintro rfl
    rw [run, List.foldlM_cons]
    have atFirst : step .first first = startElement [] first := by
      simp [step, notClose, notSpace]
    rw [atFirst, started]
    exact ran

end TextArray
