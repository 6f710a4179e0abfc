/-
Module: Zigopt.Db.JsonPath
Layer: Db
Purpose: The path of an access into a protobuf column, as `JsonPath` renders it for `jsonb_set`. The keys are
  escaped as JSON strings and read as elements of an array literal, which takes the character after a
  backslash as it is.
Main exports: jsonDumps, jsonPath, unwindJsonPath, accessesOf, parse_jsonPath, MeansPath, jsonPath_means_path
-/
import Zigopt.Db.FollowedPaths
import Zigopt.Lib.JsonbPath
import Zigopt.Lib.TextArray

namespace Zigopt.Db

open Comparison Protobuf Sql

/-! ### `json.dumps` of a key -/

/-- The characters from the space to the tilde; `ensure_ascii` escapes all others. -/
def isPrintable (character : Char) : Bool :=
  32 ≤ character.toNat && character.toNat ≤ 126

/-- `{0:04x}`. -/
def hexDigits (code : Nat) : List Char :=
  [code / 4096 % 16, code / 256 % 16, code / 16 % 16, code % 16].map Nat.digitChar

def unicodeEscape (code : Nat) : List Char :=
  '\\' :: 'u' :: hexDigits code

/-- `ESCAPE_DCT`, and `\uXXXX` for what it does not have: beyond 16 bits, for each of two surrogates. -/
def escapeChar (character : Char) : List Char :=
  match character with
  | '"' => ['\\', '"']
  | '\\' => ['\\', '\\']
  | '\n' => ['\\', 'n']
  | '\r' => ['\\', 'r']
  | '\t' => ['\\', 't']
  | '\x08' => ['\\', 'b']
  | '\x0c' => ['\\', 'f']
  | character =>
      if isPrintable character then
        [character]
      else if character.toNat < 0x10000 then
        unicodeEscape character.toNat
      else
        unicodeEscape (0xd800 + (character.toNat - 0x10000) / 1024) ++
          unicodeEscape (0xdc00 + (character.toNat - 0x10000) % 1024)

/-- `json.dumps` of one key, which escapes what is not ASCII. -/
def jsonDumps : JsonIndex → List Char
  | .name key => '"' :: key.toList.flatMap escapeChar ++ ['"']
  | .position position => position.repr.toList
  | .boolean true => ['t', 'r', 'u', 'e']
  | .boolean false => ['f', 'a', 'l', 's', 'e']

/-- `JsonPath`. -/
def jsonPath (keys : List JsonIndex) : List Char :=
  '{' :: TextArray.separated (keys.map jsonDumps) ++ ['}']

/-- `unwind_json_path`: the indices from the column to the expression. -/
def unwindJsonPath : Expression → List JsonIndex
  | .column _ => []
  | .item parent index _ => unwindJsonPath parent ++ [index]

/-! ### What a rendered key is read as -/

/-- The characters that are read for one that was escaped as JSON. -/
def readBack (character : Char) : List Char :=
  if isPrintable character then [character] else (escapeChar character).filter (· ≠ '\\')

def readText : JsonIndex → String
  | .name key => String.ofList (key.toList.flatMap readBack)
  | index => index.text

def isPrintableKey : JsonIndex → Bool
  | .name key => key.toList.all isPrintable
  | _ => true

theorem digitChar_plain : ∀ digit < 16, Nat.digitChar digit ≠ '"' ∧ Nat.digitChar digit ≠ '\\' := by
  decide

theorem hexDigits_plain (code : Nat) : ∀ digit ∈ hexDigits code, digit ≠ '"' ∧ digit ≠ '\\' := by
  intro digit member
  obtain ⟨value, isValue, rfl⟩ := List.mem_map.mp member
  apply digitChar_plain
  simp only [List.mem_cons, List.not_mem_nil, or_false] at isValue
  omega

theorem run_unicodeEscape (code : Nat) (done : List (Option String)) (body : List Char) :
    TextArray.run (.quoted done body) (unicodeEscape code) = some (.quoted done (body ++ 'u' :: hexDigits code)) := by
  have split : unicodeEscape code = ['\\', 'u'] ++ hexDigits code := rfl
  rw [split, TextArray.run_append, TextArray.run_quoted_escape, Option.bind_some,
    TextArray.run_quoted_plains (hexDigits_plain code)]
  simp

theorem filter_unicodeEscape (code : Nat) : (unicodeEscape code).filter (· ≠ '\\') = 'u' :: hexDigits code := by
  have kept : (hexDigits code).filter (· ≠ '\\') = hexDigits code := by
    apply List.filter_eq_self.mpr
    intro digit member
    simpa using (hexDigits_plain code digit member).2
  simp only [unicodeEscape, List.filter_cons, kept]
  rfl

theorem run_escapeChar (character : Char) (done : List (Option String)) (body : List Char) :
    TextArray.run (.quoted done body) (escapeChar character) =
      some (.quoted done (body ++ readBack character)) := by
  unfold readBack escapeChar
  split
  · rfl
  · rfl
  · rfl
  · rfl
  · rfl
  · rfl
  · rfl
  · rename_i notQuote notBackslash _ _ _ _ _
    by_cases printable : isPrintable character = true
    · rw [if_pos printable, if_pos printable]
      exact TextArray.run_quoted_plain notQuote notBackslash done body
    · rw [if_neg printable, if_neg printable]
      split
      · rw [run_unicodeEscape, filter_unicodeEscape]
      · rw [TextArray.run_append, run_unicodeEscape, Option.bind_some, run_unicodeEscape, List.filter_append,
          filter_unicodeEscape, filter_unicodeEscape, List.append_assoc]

theorem run_escaped (characters : List Char) (done : List (Option String)) (body : List Char) :
    TextArray.run (.quoted done body) (characters.flatMap escapeChar) =
      some (.quoted done (body ++ characters.flatMap readBack)) := by
  induction characters generalizing body with
  | nil => simp [TextArray.run]
  | cons first rest inductionHypothesis =>
      rw [List.flatMap_cons, TextArray.run_append, run_escapeChar, Option.bind_some, inductionHypothesis,
        List.flatMap_cons, List.append_assoc]

/-- What is read for a character that is not printable starts with a letter. -/
theorem readBack_of_not_printable {character : Char} (notPrintable : isPrintable character = false) :
    ∃ letter rest, readBack character = letter :: rest ∧ isPrintable letter = true := by
  have asEscaped : readBack character = (escapeChar character).filter (· ≠ '\\') := by
    rw [readBack, if_neg (by simp [notPrintable])]
  rw [asEscaped]
  unfold escapeChar
  split
  · cases notPrintable
  · cases notPrintable
  · exact ⟨'n', [], rfl, rfl⟩
  · exact ⟨'r', [], rfl, rfl⟩
  · exact ⟨'t', [], rfl, rfl⟩
  · exact ⟨'b', [], rfl, rfl⟩
  · exact ⟨'f', [], rfl, rfl⟩
  · rw [if_neg (by simp [notPrintable])]
    split
    · exact ⟨'u', _, filter_unicodeEscape _, rfl⟩
    · rw [List.filter_append, filter_unicodeEscape]
      exact ⟨'u', _, rfl, rfl⟩

theorem flatMap_readBack_eq_iff (characters : List Char) :
    characters.flatMap readBack = characters ↔ characters.all isPrintable = true := by
  induction characters with
  | nil => exact iff_of_true rfl rfl
  | cons first rest inductionHypothesis =>
      rw [List.flatMap_cons, List.all_cons, Bool.and_eq_true, ← inductionHypothesis]
      cases printable : isPrintable first with
      | true => simp [readBack, printable]
      | false =>
          obtain ⟨letter, others, starts, isLetter⟩ := readBack_of_not_printable printable
          apply iff_of_false
          · intro same
            rw [starts, List.cons_append] at same
            rw [(List.cons.inj same).1, printable] at isLetter
            cases isLetter
          · exact fun impossible => nomatch impossible.1

theorem readText_eq_iff (key : JsonIndex) : readText key = key.text ↔ isPrintableKey key = true := by
  cases key with
  | name key =>
      rw [isPrintableKey, ← flatMap_readBack_eq_iff]
      change String.ofList (key.toList.flatMap readBack) = key ↔ _
      constructor
      · intro same
        have sameCharacters := congrArg String.toList same
        rwa [String.toList_ofList] at sameCharacters
      · intro same
        rw [same, String.ofList_toList]
  | position position => exact iff_of_true rfl rfl
  | boolean value => exact iff_of_true rfl rfl

/-- Digits have no meaning in a literal, and are in no NULL. -/
theorem code_plain : ∀ code < 10,
    TextArray.isPlain (Char.ofNat (48 + code)) = true ∧ (Char.ofNat (48 + code)).toLower ≠ 'n' := by
  decide

theorem digit_plain {character : Char} (digit : character.isDigit = true ∨ character = '-') :
    TextArray.isPlain character = true ∧ character.toLower ≠ 'n' := by
  rcases digit with isDigit | rfl
  · obtain ⟨least, greatest⟩ := Char.isDigit_iff_toNat.mp isDigit
    change 48 ≤ character.toNat at least
    change character.toNat ≤ 57 at greatest
    have asCode : character = Char.ofNat (48 + (character.toNat - 48)) := by
      rw [Nat.add_sub_cancel' least, Char.ofNat_toNat]
    rw [asCode]
    exact code_plain _ (by omega)
  · decide

theorem repr_ne_nil (position : ℤ) : position.repr.toList ≠ [] := by
  cases position with
  | ofNat size =>
      change size.repr.toList ≠ []
      rw [Nat.toList_repr]
      exact Nat.toDigits_ne_nil
  | negSucc size =>
      change ("-" ++ (size + 1).repr).toList ≠ []
      rw [String.toList_append]
      exact List.cons_ne_nil _ _

theorem readsAs_jsonDumps (key : JsonIndex) : TextArray.ReadsAs (jsonDumps key) (readText key) := by
  cases key with
  | name key =>
      apply TextArray.readsAs_quoted
      intro done
      rw [run_escaped, List.nil_append]
  | position position =>
      change TextArray.ReadsAs position.repr.toList position.repr
      cases characters : position.repr.toList with
      | nil => exact absurd characters (repr_ne_nil position)
      | cons first rest =>
          have plain : ∀ character ∈ first :: rest,
              TextArray.isPlain character = true ∧ character.toLower ≠ 'n' := by
            intro character member
            exact digit_plain (isDigit_or_minus_of_mem_repr (characters ▸ member))
          have reads := TextArray.readsAs_plain (fun character member => (plain character member).1) (by
            intro isNull
            exact (plain first List.mem_cons_self).2 (List.cons.inj isNull).1)
          rw [← characters] at reads ⊢
          rwa [String.ofList_toList] at reads
  | boolean value =>
      cases value with
      | true => exact TextArray.readsAs_plain (List.all_eq_true.mp (by decide)) (by decide)
      | false => exact TextArray.readsAs_plain (List.all_eq_true.mp (by decide)) (by decide)

/-- A rendered path is read as what is read for its keys. -/
theorem parse_jsonPath (keys : List JsonIndex) :
    TextArray.parse (jsonPath keys) = some (keys.map fun key => some (readText key)) := by
  have reads : List.Forall₂ TextArray.ReadsAs (keys.map jsonDumps) (keys.map readText) := by
    rw [List.forall₂_map_left_iff, List.forall₂_map_right_iff, List.forall₂_same]
    exact fun key _ => readsAs_jsonDumps key
  rw [jsonPath, TextArray.parse_elements reads, List.map_map]
  rfl

theorem parse_jsonPath_eq_iff (keys : List JsonIndex) :
    TextArray.parse (jsonPath keys) = some (keys.map fun key => some key.text) ↔
      ∀ key ∈ keys, isPrintableKey key = true := by
  rw [parse_jsonPath, Option.some_inj, List.map_inj_left]
  refine forall₂_congr fun key _ => ?_
  rw [Option.some_inj, readText_eq_iff]

/-! ### Accesses into a column -/

def keyAccess : Scalar → Option Access
  | .string text => some (.under (.name text))
  | .int value => some (.under (.position value))
  | .bool value => some (.under (.boolean value))
  | _ => none

/-- A step of a chain as a step into the document: a field is under its JSON name, an entry of a map under its key. -/
def accessOf (schema : Schema) : Shape → Step → Option Access
  | .message type, .member name => (fieldNamed (schema type) name).map fun field => .under (.name field.jsonName)
  | .repeated _, .index position => some (.at position)
  | .map _ _, .key key => keyAccess key
  | _, _ => none

/-- The JSON names and keys of a chain, where the types of the fields allow it. -/
def accessesOf (schema : Schema) : Shape → Path → Option (List Access)
  | _, [] => some []
  | shape, first :: rest => do
      let access ← accessOf schema shape first
      let next ← shape.step schema first
      let others ← accessesOf schema next rest
      some (access :: others)

/-- The values of a map have no explicit default. -/
def MapsPlain (shape : Shape) : Prop :=
  ∀ key kind, shape = .map key kind → ∀ type explicit, kind ≠ .scalar type (some explicit)

section Chains

variable {own : OwnAttributes} {schema : Schema}

theorem mapsPlain_ofKind (kind : Kind) : MapsPlain (.ofKind kind) := by
  intro key mapped isMap
  cases kind <;> cases isMap

theorem mapsPlain_ofField (wellFormed : schema.WellFormed) {type : String} {field : Field}
    (member : field ∈ schema type) : MapsPlain (.ofField field) := by
  intro key kind isMap scalarType explicit isScalar
  unfold Shape.ofField at isMap
  cases label : field.label with
  | singular =>
      rw [label] at isMap
      exact mapsPlain_ofKind field.kind key kind isMap scalarType explicit isScalar
  | repeated =>
      rw [label] at isMap
      cases isMap
  | map mapKey =>
      rw [label] at isMap
      cases isMap
      have singular := (wellFormed.defaults type field member scalarType explicit isScalar).1
      rw [label] at singular
      cases singular

theorem mapsPlain_step (wellFormed : schema.WellFormed) {shape next : Shape} {first : Step}
    (stepped : shape.step schema first = some next) : MapsPlain next := by
  unfold Shape.step at stepped
  split at stepped
  · obtain ⟨field, named, rfl⟩ := Option.map_eq_some_iff.mp stepped
    exact mapsPlain_ofField wellFormed (mem_of_fieldNamed named)
  · cases stepped
    exact mapsPlain_ofKind _
  · split at stepped
    · cases stepped
      exact mapsPlain_ofKind _
    · cases stepped
  · cases stepped

/-- One access of a chain is an item of the expression, typed as the next step of the chain. -/
theorem read_access (wellFormed : schema.WellFormed) {shape next : Shape} {expression child : Expression}
    {first : Step} {access : Access} (typed : descriptorOf shape = .ok expression.descriptor)
    (mapsPlain : MapsPlain shape) (accessed : accessOf schema shape first = some access)
    (plain : access.isPlain = true) (stepped : shape.step schema first = some next)
    (read : expression.read own schema first = .ok child) :
    ∃ descriptor, child = .item expression access.index descriptor ∧ descriptorOf next = .ok descriptor := by
  unfold accessOf at accessed
  split at accessed
  · rename_i type name
    obtain ⟨field, named, rfl⟩ := Option.map_eq_some_iff.mp accessed
    have isMessage : expression.descriptor = .message type := (Except.ok.inj typed).symm
    have isNext : next = .ofField field := by
      rw [Shape.step, named] at stepped
      exact (Option.some.inj stepped).symm
    change expression.getattr own schema name = .ok child at read
    unfold Expression.getattr at read
    split at read
    · cases read
    · unfold Expression.getValueFromDescriptor at read
      rw [isMessage] at read
      simp only [fieldsOf, named] at read
      obtain ⟨descriptor, isItem, found⟩ := realGetitem_item read
      rw [isMessage, getJsonKey_jsonName wellFormed (mem_of_fieldNamed named)] at found
      exact ⟨descriptor, isItem, isNext ▸ found⟩
  · rename_i kind position
    cases accessed
    have isField : expression.descriptor = .field .repeated kind := (Except.ok.inj typed).symm
    have isNext : next = .ofKind kind := (Option.some.inj stepped).symm
    change expression.getitem schema (.position position) = .ok child at read
    obtain ⟨descriptor, isItem, found⟩ := getitem_item read
    rw [isField, getJsonKey_position] at found
    exact ⟨descriptor, isItem, isNext ▸ found⟩
  · rename_i keyType kind key
    have isField : expression.descriptor = .field (.map keyType) kind := (Except.ok.inj typed).symm
    have isNext : next = .ofKind kind := by
      rw [Shape.step] at stepped
      split at stepped
      · exact (Option.some.inj stepped).symm
      · cases stepped
    cases key with
    | string text =>
        cases accessed
        change expression.getitem schema (.name text) = .ok child at read
        obtain ⟨descriptor, isItem, found⟩ := getitem_item read
        have notPosition : ∀ position, JsonIndex.name text ≠ .position position := by
          intro position same
          cases same
        rw [isField, getJsonKey_name schema (mapsPlain keyType kind rfl) keyType notPosition] at found
        exact ⟨descriptor, isItem, isNext ▸ found⟩
    | int value =>
        cases accessed
        cases plain
    | bool value =>
        cases accessed
        cases plain
    | float value => cases accessed
    | bytes base64 => cases accessed
  · cases accessed

/-- The expression of a chain unwinds to its JSON names and keys. -/
theorem unwindJsonPath_follow (wellFormed : schema.WellFormed) {shape : Shape} {expression final : Expression}
    {path : Path} {accesses : List Access} (typed : descriptorOf shape = .ok expression.descriptor)
    (mapsPlain : MapsPlain shape) (accessed : accessesOf schema shape path = some accesses)
    (plain : accesses.all Access.isPlain = true) (followed : expression.follow own schema path = .ok final) :
    unwindJsonPath final = unwindJsonPath expression ++ accesses.map Access.index := by
  induction path generalizing shape expression accesses with
  | nil =>
      cases accessed
      cases followed
      rw [List.map_nil, List.append_nil]
  | cons first rest inductionHypothesis =>
      simp only [accessesOf, Option.bind_eq_bind, Option.bind_eq_some_iff] at accessed
      obtain ⟨access, isAccess, next, stepped, others, otherAccesses, isList⟩ := accessed
      cases isList
      rw [List.all_cons, Bool.and_eq_true] at plain
      rw [Expression.follow] at followed
      cases read : expression.read own schema first with
      | error failure =>
          rw [read] at followed
          cases followed
      | ok child =>
          rw [read] at followed
          obtain ⟨descriptor, rfl, typedChild⟩ :=
            read_access wellFormed typed mapsPlain isAccess plain.1 stepped read
          rw [inductionHypothesis typedChild (mapsPlain_step wellFormed stepped) otherAccesses plain.2 followed,
            unwindJsonPath, List.append_assoc]
          rfl

end Chains

/-! ### What an expression reads -/

theorem documentAt_append (front : List JsonIndex) (last : JsonIndex) (document : Json) :
    documentAt (front ++ [last]) document = (documentAt front document).bind fun inner => documentItem inner last := by
  induction front generalizing document with
  | nil =>
      change (documentItem document last).bind some = documentItem document last
      cases documentItem document last with
      | none => rfl
      | some inner => rfl
  | cons first rest inductionHypothesis =>
      rw [List.cons_append, documentAt, documentAt, Option.bind_assoc]
      exact Option.bind_congr fun inner _ => inductionHypothesis inner

theorem item_itemOf (content : Option Json) (index : JsonIndex) :
    (itemOf content).item index = .ok (itemOf (content.bind fun document => documentItem document index)) := by
  cases content with
  | none => rfl
  | some document => rfl

/-- The items of a column are those of the unwound path. -/
theorem eval_clause (before : Collation) (document : Json) (expression : Expression)
    (checked : ∀ index ∈ unwindJsonPath expression, index.check = .ok ()) :
    expression.clause.eval before document = .ok (itemOf (documentAt (unwindJsonPath expression) document)) := by
  induction expression with
  | column type => rfl
  | item parent index descriptor inductionHypothesis =>
      have parentReads := inductionHypothesis fun other member =>
        checked other (List.mem_append_left _ member)
      have isChecked := checked index (List.mem_append_right _ (List.mem_singleton_self index))
      rw [Expression.clause, Clause.eval, isChecked, parentReads, unwindJsonPath, documentAt_append,
        ← item_itemOf]
      rfl

theorem documentAt_of_eval (before : Collation) (document : Json) (expression : Expression) {content : SqlValue}
    (read : expression.clause.eval before document = .ok content) :
    content = itemOf (documentAt (unwindJsonPath expression) document) := by
  induction expression generalizing content with
  | column type => exact (Except.ok.inj read).symm
  | item parent index descriptor inductionHypothesis =>
      rw [Expression.clause, Clause.eval] at read
      cases checked : index.check with
      | error failure =>
          rw [checked] at read
          cases read
      | ok done =>
          rw [checked] at read
          cases parentRead : parent.clause.eval before document with
          | error failure =>
              rw [parentRead] at read
              cases read
          | ok inner =>
              rw [parentRead] at read
              change inner.item index = .ok content at read
              rw [inductionHypothesis parentRead, item_itemOf] at read
              rw [unwindJsonPath, documentAt_append]
              exact (Except.ok.inj read).symm

/-! ### Paths that mean the same -/

/-- Wherever a document has the place, `jsonb_set` through the path writes what the access then reads. -/
def WritesWhatIsRead (before : Collation) (final : Expression) (accesses : List Access) : Prop :=
  ∀ document, PlaceIn accesses document → ∀ value, ∃ updated,
    jsonbSet ((unwindJsonPath final).map JsonIndex.text) document value = some updated ∧
      final.clause.eval before updated = .ok (.jsonb value)

/-- The path that is rendered is the one that was accessed, and writing there is read back. -/
structure MeansPath (before : Collation) (final : Expression) (accesses : List Access) : Prop where
  unwound : unwindJsonPath final = accesses.map Access.index
  rendered : TextArray.parse (jsonPath (unwindJsonPath final)) =
    some ((unwindJsonPath final).map fun key => some key.text)
  written : WritesWhatIsRead before final accesses

/-- A name of printable characters, or a position of an array. -/
def isPlainAccess : Access → Bool
  | .under (.name key) => key.toList.all isPrintable
  | .under _ => false
  | .at _ => true

theorem isPlainAccess_iff (access : Access) :
    isPlainAccess access = true ↔ access.isPlain = true ∧ isPrintableKey access.index = true := by
  cases access with
  | under index =>
      cases index with
      | name key => simp [isPlainAccess, Access.isPlain, isPrintableKey, Access.index]
      | position position => simp [isPlainAccess, Access.isPlain]
      | boolean value => simp [isPlainAccess, Access.isPlain]
  | «at» position => simp [isPlainAccess, Access.isPlain, isPrintableKey, Access.index]

theorem check_of_isPlainAccess {access : Access} (plain : isPlainAccess access = true) :
    access.index.check = .ok () := by
  cases access with
  | under index =>
      cases index with
      | name key =>
          apply check_name
          unfold hasNull
          rw [List.any_eq_false]
          intro character member isNull
          rw [decide_eq_true_eq] at isNull
          have printable := List.all_eq_true.mp plain character member
          rw [isNull] at printable
          cases printable
      | position position => cases plain
      | boolean value => cases plain
  | «at» position => rfl

theorem map_text_eq {final : Expression} {accesses : List Access}
    (unwound : unwindJsonPath final = accesses.map Access.index) :
    (unwindJsonPath final).map JsonIndex.text = accesses.map Access.text := by
  rw [unwound, List.map_map]
  rfl

theorem isPlain_of_writes {before : Collation} {final : Expression} {accesses : List Access}
    (nonempty : accesses ≠ []) (unwound : unwindJsonPath final = accesses.map Access.index)
    (written : WritesWhatIsRead before final accesses) : accesses.all Access.isPlain = true := by
  by_contra notPlain
  obtain ⟨updated, isSet, reads⟩ := written (documentFor accesses) (placeIn_documentFor accesses) .null
  obtain ⟨expected, isExpected, placeExpected, _⟩ :=
    jsonbSet_place nonempty (placeIn_documentFor accesses) .null
  rw [map_text_eq unwound] at isSet
  obtain rfl : updated = expected := Option.some.inj (isSet.symm.trans isExpected)
  have nothing := documentAt_of_eval before updated final reads
  rw [unwound, documentAt_eq_none placeExpected (by simpa using notPlain)] at nothing
  cases nothing

/-- A rendered path is read as its keys exactly if the strings among them are printable, and the path of a chain
    of accesses means the same place exactly if its objects are accessed by printable names. -/
theorem jsonPath_means_path (before : Collation) (own : OwnAttributes) {schema : Schema}
    (wellFormed : schema.WellFormed) :
    (∀ keys : List JsonIndex, TextArray.parse (jsonPath keys) = some (keys.map fun key => some key.text) ↔
      ∀ key ∈ keys, isPrintableKey key = true) ∧
    ∀ type path final accesses, path ≠ [] → (Expression.column type).follow own schema path = .ok final →
      accessesOf schema (.message type) path = some accesses →
        (MeansPath before final accesses ↔ ∀ access ∈ accesses, isPlainAccess access = true) := by
  refine ⟨parse_jsonPath_eq_iff, ?_⟩
  intro type path final accesses somePath followed accessed
  have nonempty : accesses ≠ [] := by
    rintro rfl
    cases path with
    | nil => exact somePath rfl
    | cons first rest =>
        simp only [accessesOf, Option.bind_eq_bind, Option.bind_eq_some_iff] at accessed
        obtain ⟨_, _, _, _, _, _, impossible⟩ := accessed
        cases impossible
  constructor
  · intro means access member
    rw [isPlainAccess_iff]
    constructor
    · exact List.all_eq_true.mp (isPlain_of_writes nonempty means.unwound means.written) access member
    · apply (parse_jsonPath_eq_iff _).mp means.rendered
      rw [means.unwound]
      exact List.mem_map_of_mem member
  · intro plain
    have allPlain : accesses.all Access.isPlain = true :=
      List.all_eq_true.mpr fun access member => ((isPlainAccess_iff access).mp (plain access member)).1
    have unwound : unwindJsonPath final = accesses.map Access.index :=
      @unwindJsonPath_follow _ _ wellFormed (.message type) _ _ _ _ rfl (by rintro _ _ ⟨⟩) accessed allPlain followed
    refine ⟨unwound, ?_, ?_⟩
    · rw [parse_jsonPath_eq_iff, unwound]
      intro key isKey
      obtain ⟨access, member, rfl⟩ := List.mem_map.mp isKey
      exact ((isPlainAccess_iff access).mp (plain access member)).2
    · intro document place value
      obtain ⟨updated, isSet, _, reads⟩ := jsonbSet_place nonempty place value
      refine ⟨updated, by rw [map_text_eq unwound, isSet], ?_⟩
      rw [eval_clause, unwound, reads allPlain]
      · rfl
      · rw [unwound]
        intro index isIndex
        obtain ⟨access, member, rfl⟩ := List.mem_map.mp isIndex
        exact check_of_isPlainAccess (plain access member)

/-! ### The values of a training run -/

def valuesMap : Field := ⟨"values_map", "v", .map .string, .message "TrainingRunValue"⟩

def valueField : Field := ⟨"value", "v", .singular, .scalar .double none⟩

/-- The values of a training run, by the names of the metrics. -/
def trainingRunValues : Schema := fun type =>
  if type = "TrainingRunData" then [valuesMap] else if type = "TrainingRunValue" then [valueField] else []

theorem mem_trainingRunValues {type : String} {field : Field} (member : field ∈ trainingRunValues type) :
    field = valuesMap ∨ field = valueField := by
  unfold trainingRunValues at member
  split at member
  · exact .inl (List.mem_singleton.mp member)
  · split at member
    · exact .inr (List.mem_singleton.mp member)
    · cases member

theorem trainingRunValues_wellFormed : trainingRunValues.WellFormed where
  jsonNames type := by
    unfold trainingRunValues
    split
    · exact List.nodup_singleton _
    · split
      · exact List.nodup_singleton _
      · exact List.nodup_nil
  printable type field member := by
    rcases mem_trainingRunValues member with rfl | rfl
    · decide
    · decide
  enums type field member values default kind := by
    rcases mem_trainingRunValues member with rfl | rfl
    · cases kind
    · cases kind
  defaults type field member scalarType value kind := by
    rcases mem_trainingRunValues member with rfl | rfl
    · cases kind
    · cases kind

/-- The path of the value of the metric `loss`. -/
def lossPath : Path := [.member "values_map", .key (.string "loss"), .member "value"]

def lossAccesses : List Access := [.under (.name "v"), .under (.name "loss"), .under (.name "v")]

def lossExpression : Expression :=
  .item (.item (.item (.column "TrainingRunData") (.name "v") (.field (.map .string) (.message "TrainingRunValue")))
    (.name "loss") (.message "TrainingRunValue")) (.name "v") (.scalar (.python .float))

/-- A key with braces, and the chain of accesses to a reported value. -/
theorem jsonPath_loss :
    (TextArray.parse (jsonPath [.name "{loss}"]) = some ([JsonIndex.name "{loss}"].map fun key => some key.text) ↔
      ∀ key ∈ [JsonIndex.name "{loss}"], isPrintableKey key = true) ∧
    (MeansPath (fun _ _ => false) lossExpression lossAccesses ↔
      ∀ access ∈ lossAccesses, isPlainAccess access = true) := by
  obtain ⟨rendered, chains⟩ := jsonPath_means_path (fun _ _ => false) ⟨fun _ => false, fun _ => false⟩
    trainingRunValues_wellFormed
  exact ⟨rendered [.name "{loss}"],
    chains "TrainingRunData" lossPath lossExpression lossAccesses (by decide) (by rfl) (by rfl)⟩

/-- An accented letter is read as the digits of its code. -/
theorem accented_key_differs :
    ¬∀ keys : List JsonIndex, keys ≠ [] →
      TextArray.parse (jsonPath keys) = some (keys.map fun key => some key.text) := by
  intro supposed
  exact absurd (supposed [.name "précision"] (by decide)) (by decide +kernel)

end Zigopt.Db
