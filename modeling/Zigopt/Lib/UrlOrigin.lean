/-
Module: Zigopt.Lib.UrlOrigin
Layer: Lib
Purpose: The origin of what a browser reads in a link on an http or https page: the states of the URL standard's parser
  up to the port, one function each, and the texts that lead to the origin of the page itself.
Main exports: UrlOrigin.resolve, UrlOrigin.NamesOrigin, UrlOrigin.StaysAt, UrlOrigin.resolve_eq_iff
-/
import Mathlib.Data.List.DropRight

namespace UrlOrigin

/-- A tuple origin; the default port of the scheme is none. -/
structure Origin where
  scheme : String
  host : String
  port : Option ℕ
deriving DecidableEq, Repr

/-- The scheme of a page. -/
def IsWeb (scheme : String) : Prop := scheme = "http" ∨ scheme = "https"

/-- The host parser, and the origin of what a `blob:` URL has as its path. -/
structure Standard where
  parseHost : List Char → Option String
  blobOrigin : List Char → Option Origin

/-! ### Characters -/

def isSlash (character : Char) : Bool := character = '/' || character = '\\'

/-- What ends the authority of a special URL. -/
def isTerminator (character : Char) : Bool := isSlash character || character = '?' || character = '#'

def isControlOrSpace (character : Char) : Bool := character.toNat ≤ 0x20

def isTabOrNewline (character : Char) : Bool := character = '\t' || character = '\n' || character = '\r'

/-- The text without the controls and spaces around it, and without tabs and newlines. -/
def cleaned (text : List Char) : List Char :=
  ((text.dropWhile isControlOrSpace).rdropWhile isControlOrSpace).filter fun character => !isTabOrNewline character

def isSchemeCharacter (character : Char) : Bool :=
  character.isAlphanum || character = '+' || character = '-' || character = '.'

def isSpecial (scheme : String) : Bool := scheme ∈ ["http", "https", "ws", "wss", "ftp"]

def defaultPort (scheme : String) : ℕ :=
  if scheme = "http" ∨ scheme = "ws" then 80 else if scheme = "ftp" then 21 else 443

/-! ### The states of the parser

Each answers the origin of the URL, and nothing where the parser fails or the origin is opaque. -/

section States

variable (standard : Standard) (scheme : String)

def digitsValue (digits : List Char) : ℕ :=
  digits.foldl (fun value digit => 10 * value + (digit.toNat - '0'.toNat)) 0

def finishPort (host : String) (buffer : List Char) : Option Origin :=
  if buffer = [] then
    some ⟨scheme, host, none⟩
  else if 65535 < digitsValue buffer then
    none
  else
    some ⟨scheme, host, if digitsValue buffer = defaultPort scheme then none else some (digitsValue buffer)⟩

def portState (host : String) (buffer : List Char) : List Char → Option Origin
  | [] => finishPort scheme host buffer
  | character :: rest =>
      if character.isDigit then portState host (buffer ++ [character]) rest
      else if isTerminator character then finishPort scheme host buffer
      else none

def finishHost (buffer : List Char) : Option Origin :=
  if buffer = [] then none else (standard.parseHost buffer).map fun host => ⟨scheme, host, none⟩

def nextBrackets (insideBrackets : Bool) (character : Char) : Bool :=
  if character = '[' then true else if character = ']' then false else insideBrackets

def hostState (insideBrackets : Bool) (buffer : List Char) : List Char → Option Origin
  | [] => finishHost standard scheme buffer
  | character :: rest =>
      if character = ':' ∧ insideBrackets = false then
        if buffer = [] then none
        else (standard.parseHost buffer).bind fun host => portState scheme host [] rest
      else if isTerminator character then finishHost standard scheme buffer
      else hostState (nextBrackets insideBrackets character) (buffer ++ [character]) rest

/-- At the end of the authority the pointer goes back to where the buffer began. -/
def authorityState (atSignSeen : Bool) (buffer : List Char) : List Char → Option Origin
  | [] => if atSignSeen = true ∧ buffer = [] then none else hostState standard scheme false [] buffer
  | character :: rest =>
      if character = '@' then authorityState true [] rest
      else if isTerminator character then
        if atSignSeen = true ∧ buffer = [] then none
        else hostState standard scheme false [] (buffer ++ character :: rest)
      else authorityState atSignSeen (buffer ++ [character]) rest

def specialAuthorityIgnoreSlashesState : List Char → Option Origin
  | [] => authorityState standard scheme false [] []
  | character :: rest =>
      if isSlash character then specialAuthorityIgnoreSlashesState rest
      else authorityState standard scheme false [] (character :: rest)

def specialAuthoritySlashesState : List Char → Option Origin
  | '/' :: '/' :: rest => specialAuthorityIgnoreSlashesState standard scheme rest
  | text => specialAuthorityIgnoreSlashesState standard scheme text

end States

section Relative

variable (standard : Standard) (page : Origin)

def relativeSlashState : List Char → Option Origin
  | [] => some page
  | character :: rest =>
      if isSlash character then specialAuthorityIgnoreSlashesState standard page.scheme rest else some page

def relativeState : List Char → Option Origin
  | [] => some page
  | character :: rest => if isSlash character then relativeSlashState standard page rest else some page

def specialRelativeOrAuthorityState : List Char → Option Origin
  | '/' :: '/' :: rest => specialAuthorityIgnoreSlashesState standard page.scheme rest
  | text => relativeState standard page text

/-- After the colon; `file:` and other schemes have opaque origins. -/
def afterScheme (scheme : String) (rest : List Char) : Option Origin :=
  if isSpecial scheme then
    if scheme = page.scheme then specialRelativeOrAuthorityState standard page rest
    else specialAuthoritySlashesState standard scheme rest
  else if scheme = "blob" then standard.blobOrigin rest
  else none

/-- Where the scheme state fails, the parser starts over with the whole text. -/
def schemeState (whole buffer : List Char) : List Char → Option Origin
  | [] => relativeState standard page whole
  | character :: rest =>
      if isSchemeCharacter character then schemeState whole (buffer ++ [character.toLower]) rest
      else if character = ':' then afterScheme standard page (String.ofList buffer) rest
      else relativeState standard page whole

def schemeStartState (whole : List Char) : Option Origin :=
  match whole with
  | [] => relativeState standard page whole
  | character :: rest =>
      if character.isAlpha then schemeState standard page whole [character.toLower] rest
      else relativeState standard page whole

/-- The origin of a link on a page. -/
def resolve (text : List Char) : Option Origin := schemeStartState standard page (cleaned text)

end Relative

/-! ### The texts that name an origin -/

/-- The authority after any slashes, less its credentials. -/
def hostAndPort (text : List Char) : List Char :=
  ((text.dropWhile isSlash).takeWhile fun character => !isTerminator character).rtakeWhile fun character =>
    character ≠ '@'

/-- No colon outside of brackets. -/
def HostText : Bool → List Char → Prop
  | _, [] => True
  | insideBrackets, character :: rest =>
      ¬(character = ':' ∧ insideBrackets = false) ∧ HostText (nextBrackets insideBrackets character) rest

def bracketsAfter (insideBrackets : Bool) (text : List Char) : Bool := text.foldl nextBrackets insideBrackets

/-- A port as it is written after the host: nothing, or a colon with digits. -/
inductive PortText (scheme : String) : List Char → Option ℕ → Prop
  | absent : PortText scheme [] none
  | empty : PortText scheme [':'] none
  | digits {digits : List Char} (nonempty : digits ≠ []) (all : ∀ digit ∈ digits, digit.isDigit = true)
      (fits : digitsValue digits ≤ 65535) : PortText scheme (':' :: digits)
        (if digitsValue digits = defaultPort scheme then none else some (digitsValue digits))

/-- A host that is read as the one of the origin, and its port. -/
structure NamesOrigin (standard : Standard) (origin : Origin) (text : List Char) : Prop where
  split : ∃ host port, hostAndPort text = host ++ port ∧ host ≠ [] ∧ HostText false host ∧
    standard.parseHost host = some origin.host ∧ PortText origin.scheme port origin.port ∧
    (port ≠ [] → bracketsAfter false host = false)

/-- Two slashes or backslashes, after which there is an authority. -/
def StartsWithSlashes : List Char → Prop
  | first :: second :: _ => isSlash first = true ∧ isSlash second = true
  | _ => False

/-- A scheme and a colon, and what comes after. -/
def HasScheme (text : List Char) (scheme : String) (rest : List Char) : Prop :=
  ∃ first letters, text = first :: letters ++ ':' :: rest ∧ first.isAlpha = true ∧
    (∀ letter ∈ letters, isSchemeCharacter letter = true) ∧
    scheme = String.ofList ((first :: letters).map Char.toLower)

/-- What comes after the scheme, or the whole text without one, has no authority or names the page's. -/
def StaysRelative (standard : Standard) (page : Origin) (text : List Char) : Prop :=
  StartsWithSlashes text → NamesOrigin standard page text

/-- The texts that lead to the origin of the page. -/
def StaysAt (standard : Standard) (page : Origin) (text : List Char) : Prop :=
  ((∀ scheme rest, ¬HasScheme text scheme rest) ∧ StaysRelative standard page text) ∨
    (∃ rest, HasScheme text page.scheme rest ∧ StaysRelative standard page rest) ∨
    ∃ rest, HasScheme text "blob" rest ∧ standard.blobOrigin rest = some page

/-! ### The port and the host -/

theorem takeWhile_terminator {character : Char} {rest : List Char} (ends : isTerminator character = true) :
    (character :: rest).takeWhile (fun character => !isTerminator character) = [] := by
  rw [List.takeWhile_cons_of_neg]
  simp [ends]

theorem takeWhile_inside {character : Char} {rest : List Char} (inside : isTerminator character = false) :
    (character :: rest).takeWhile (fun character => !isTerminator character) =
      character :: rest.takeWhile fun character => !isTerminator character := by
  rw [List.takeWhile_cons_of_pos]
  simp [inside]

theorem isTerminator_of_isDigit {character : Char} (digit : character.isDigit = true) :
    isTerminator character = false := by
  cases ends : isTerminator character with
  | false => rfl
  | true =>
      have isOne : ((character = '/' ∨ character = '\\') ∨ character = '?') ∨ character = '#' := by
        simpa [isTerminator, isSlash] using ends
      rcases isOne with ((rfl | rfl) | rfl) | rfl <;> revert digit <;> decide

section Authority

variable {standard : Standard} {scheme host : String} {origin : Origin}

theorem finishPort_eq_some {buffer : List Char} : finishPort scheme host buffer = some origin ↔
    origin.scheme = scheme ∧ origin.host = host ∧
      ((buffer = [] ∧ origin.port = none) ∨ (buffer ≠ [] ∧ digitsValue buffer ≤ 65535 ∧
        origin.port = if digitsValue buffer = defaultPort scheme then none else some (digitsValue buffer))) := by
  obtain ⟨originScheme, originHost, originPort⟩ := origin
  unfold finishPort
  split
  · rename_i empty
    simp only [Option.some.injEq, Origin.mk.injEq, empty]
    tauto
  · rename_i nonempty
    split
    · rename_i large
      constructor
      · rintro ⟨⟩
      · rintro ⟨_, _, ⟨empty, _⟩ | ⟨_, fits, _⟩⟩
        · exact absurd empty nonempty
        · omega
    · rename_i notLarge
      simp only [Option.some.injEq, Origin.mk.injEq]
      constructor
      · rintro ⟨rfl, rfl, rfl⟩
        exact ⟨rfl, rfl, Or.inr ⟨nonempty, by omega, rfl⟩⟩
      · rintro ⟨rfl, rfl, ⟨empty, _⟩ | ⟨_, _, rfl⟩⟩
        · exact absurd empty nonempty
        · exact ⟨rfl, rfl, rfl⟩

/-- The port goes to the end of the authority. -/
theorem portState_eq_some {buffer text : List Char} : portState scheme host buffer text = some origin ↔
    (∀ digit ∈ text.takeWhile (fun character => !isTerminator character), digit.isDigit = true) ∧
      finishPort scheme host (buffer ++ text.takeWhile fun character => !isTerminator character) = some origin := by
  induction text generalizing buffer with
  | nil => simp [portState]
  | cons character rest inductionHypothesis =>
      unfold portState
      by_cases digit : character.isDigit = true
      · rw [if_pos digit, inductionHypothesis, takeWhile_inside (isTerminator_of_isDigit digit)]
        simp [digit]
      · rw [if_neg digit]
        by_cases ends : isTerminator character = true
        · rw [if_pos ends, takeWhile_terminator ends]
          simp
        · rw [if_neg ends, takeWhile_inside (by simpa using ends)]
          simp [digit]

/-- A host and its port, up to the end of the authority. -/
structure HostSplit (standard : Standard) (origin : Origin) (insideBrackets : Bool) (buffer text : List Char)
    (host port : List Char) : Prop where
  split : text = host ++ port
  nonempty : buffer ++ host ≠ []
  hostText : HostText insideBrackets host
  read : standard.parseHost (buffer ++ host) = some origin.host
  isPort : PortText origin.scheme port origin.port
  outside : port ≠ [] → bracketsAfter insideBrackets host = false

theorem finishHost_eq_some {insideBrackets : Bool} {buffer : List Char} :
    finishHost standard scheme buffer = some origin ↔
      origin.scheme = scheme ∧ ∃ host port, HostSplit standard origin insideBrackets buffer [] host port := by
  obtain ⟨originScheme, originHost, originPort⟩ := origin
  constructor
  · intro finished
    unfold finishHost at finished
    split at finished
    · cases finished
    · rename_i nonempty
      simp only [Option.map_eq_some_iff, Origin.mk.injEq] at finished
      obtain ⟨host, read, rfl, rfl, rfl⟩ := finished
      exact ⟨rfl, [], [], rfl, by simpa using nonempty, trivial, by simpa using read, .absent,
        fun some => absurd rfl some⟩
  · rintro ⟨rfl, host, port, isSplit⟩
    obtain ⟨rfl, rfl⟩ := List.append_eq_nil_iff.mp isSplit.split.symm
    have nonempty : buffer ≠ [] := by simpa using isSplit.nonempty
    have read : standard.parseHost buffer = some originHost := by simpa using isSplit.read
    have noPort : originPort = none := by
      have isPort := isSplit.isPort
      dsimp only at isPort
      cases isPort
      rfl
    rw [finishHost, if_neg nonempty, read, noPort]
    rfl

theorem portText_iff {portOf : Option ℕ} {digits : List Char} : PortText scheme (':' :: digits) portOf ↔
    (∀ digit ∈ digits, digit.isDigit = true) ∧ finishPort scheme host digits = some ⟨scheme, host, portOf⟩ := by
  rw [finishPort_eq_some]
  simp only [true_and]
  constructor
  · intro isPort
    cases isPort with
    | empty => exact ⟨by simp, Or.inl ⟨rfl, rfl⟩⟩
    | digits nonempty all fits => exact ⟨all, Or.inr ⟨nonempty, fits, rfl⟩⟩
  · rintro ⟨all, ⟨rfl, rfl⟩ | ⟨nonempty, fits, rfl⟩⟩
    · exact .empty
    · exact .digits nonempty all fits

theorem PortText.colon {character : Char} {rest : List Char} {port : Option ℕ}
    (isPort : PortText scheme (character :: rest) port) : character = ':' := by
  cases isPort <;> rfl

/-- After a colon outside of brackets the host is complete. -/
theorem HostSplit.colon_iff {buffer rest : List Char} (same : origin.scheme = scheme) :
    (∃ host port, HostSplit standard origin false buffer (':' :: rest) host port) ↔
      buffer ≠ [] ∧ standard.parseHost buffer = some origin.host ∧ PortText scheme (':' :: rest) origin.port := by
  constructor
  · rintro ⟨host, port, isSplit⟩
    cases host with
    | nil =>
        have isPort : port = ':' :: rest := isSplit.split.symm
        refine ⟨by simpa using isSplit.nonempty, by simpa using isSplit.read, ?_⟩
        rw [← isPort, ← same]
        exact isSplit.isPort
    | cons first others =>
        obtain ⟨rfl, _⟩ := List.cons.inj isSplit.split
        exact absurd ⟨rfl, rfl⟩ isSplit.hostText.1
  · rintro ⟨nonempty, read, isPort⟩
    exact ⟨[], ':' :: rest, rfl, by simpa using nonempty, trivial, by simpa using read, same ▸ isPort, fun _ => rfl⟩

/-- Another character of the authority belongs to the host. -/
theorem HostSplit.cons_iff {insideBrackets : Bool} {character : Char} {buffer rest : List Char}
    (notColon : ¬(character = ':' ∧ insideBrackets = false)) :
    (∃ host port, HostSplit standard origin insideBrackets buffer (character :: rest) host port) ↔
      ∃ host port, HostSplit standard origin (nextBrackets insideBrackets character) (buffer ++ [character]) rest
        host port := by
  constructor
  · rintro ⟨host, port, isSplit⟩
    cases host with
    | nil =>
        have isPort : port = character :: rest := isSplit.split.symm
        have outside := isSplit.outside (by rw [isPort]; exact List.cons_ne_nil _ _)
        have colon := isSplit.isPort
        rw [isPort] at colon
        exact absurd ⟨colon.colon, outside⟩ notColon
    | cons first others =>
        obtain ⟨rfl, sameRest⟩ := List.cons.inj isSplit.split
        exact ⟨others, port, sameRest, by simp, isSplit.hostText.2, by simpa using isSplit.read, isSplit.isPort,
          isSplit.outside⟩
  · rintro ⟨host, port, isSplit⟩
    refine ⟨character :: host, port, ?_, by simp, ⟨notColon, isSplit.hostText⟩, by simpa using isSplit.read,
      isSplit.isPort, isSplit.outside⟩
    rw [isSplit.split]
    rfl

/-- The host state answers an origin exactly for a host and a port of it. -/
theorem hostState_eq_some {insideBrackets : Bool} {buffer text : List Char} :
    hostState standard scheme insideBrackets buffer text = some origin ↔
      origin.scheme = scheme ∧ ∃ host port, HostSplit standard origin insideBrackets buffer
        (text.takeWhile fun character => !isTerminator character) host port := by
  induction text generalizing insideBrackets buffer with
  | nil => exact finishHost_eq_some
  | cons character rest inductionHypothesis =>
      unfold hostState
      split
      · rename_i colon
        obtain ⟨rfl, rfl⟩ := colon
        rw [takeWhile_inside (by decide)]
        constructor
        · intro answered
          split at answered
          · cases answered
          · rename_i nonempty
            obtain ⟨host, read, port⟩ := Option.bind_eq_some_iff.mp answered
            obtain ⟨all, finished⟩ := portState_eq_some.mp port
            obtain ⟨same, isHost, _⟩ := finishPort_eq_some.mp finished
            refine ⟨same, (HostSplit.colon_iff same).mpr ⟨nonempty, isHost ▸ read, ?_⟩⟩
            rw [@portText_iff _ host]
            refine ⟨all, ?_⟩
            rw [← isHost, ← same]
            rw [← isHost, ← same] at finished
            exact finished
        · rintro ⟨same, isSplit⟩
          obtain ⟨nonempty, read, isPort⟩ := (HostSplit.colon_iff same).mp isSplit
          obtain ⟨all, finished⟩ := (@portText_iff _ origin.host _ _).mp isPort
          rw [if_neg nonempty, read, Option.bind_some, portState_eq_some]
          refine ⟨all, ?_⟩
          rw [List.nil_append, finished, ← same]
      · rename_i notColon
        split
        · rename_i ends
          rw [takeWhile_terminator ends]
          exact finishHost_eq_some
        · rename_i inside
          rw [takeWhile_inside (by simpa using inside), HostSplit.cons_iff notColon]
          exact inductionHypothesis

/-! ### The authority -/

theorem rtakeWhile_at {first second : List Char} :
    (first ++ '@' :: second).rtakeWhile (fun character => character ≠ '@') =
      second.rtakeWhile fun character => character ≠ '@' := by
  induction second using List.reverseRecOn with
  | nil =>
      rw [List.rtakeWhile_concat_neg _ _ _ (by decide)]
      rfl
  | append_singleton others last inductionHypothesis =>
      rw [← List.cons_append, ← List.append_assoc]
      by_cases isAt : last = '@'
      · rw [List.rtakeWhile_concat_neg _ _ _ (by simp [isAt]), List.rtakeWhile_concat_neg _ _ _ (by simp [isAt])]
      · rw [List.rtakeWhile_concat_pos _ _ _ (by simpa using isAt),
          List.rtakeWhile_concat_pos _ _ _ (by simpa using isAt), inductionHypothesis]

theorem rtakeWhile_of_noAtSign {text : List Char} (noAtSign : '@' ∉ text) :
    text.rtakeWhile (fun character => character ≠ '@') = text := by
  rw [List.rtakeWhile_eq_self_iff]
  intro character isIn
  simpa using ne_of_mem_of_not_mem isIn noAtSign

/-- The authority state leaves the host state with what follows the credentials. -/
theorem authorityState_eq {atSignSeen : Bool} {buffer text : List Char} (noAtSign : '@' ∉ buffer) :
    authorityState standard scheme atSignSeen buffer text = hostState standard scheme false []
      ((buffer ++ text.takeWhile fun character => !isTerminator character).rtakeWhile
        (fun character => character ≠ '@') ++ text.dropWhile fun character => !isTerminator character) := by
  induction text generalizing atSignSeen buffer with
  | nil =>
      rw [List.takeWhile_nil, List.dropWhile_nil, List.append_nil, List.append_nil, rtakeWhile_of_noAtSign noAtSign,
        authorityState]
      split
      · rename_i empty
        rw [empty.2]
        rfl
      · rfl
  | cons character rest inductionHypothesis =>
      unfold authorityState
      split
      · rename_i isAt
        subst isAt
        rw [takeWhile_inside (by decide), rtakeWhile_at, inductionHypothesis List.not_mem_nil, List.nil_append,
          List.dropWhile_cons_of_pos (by decide)]
      · rename_i notAt
        by_cases ends : isTerminator character = true
        · rw [if_pos ends, takeWhile_terminator ends, List.append_nil, rtakeWhile_of_noAtSign noAtSign,
            List.dropWhile_cons_of_neg (by simp [ends])]
          split
          · rename_i empty
            have notColon : ¬(character = ':' ∧ false = false) := by
              rintro ⟨rfl, _⟩
              exact absurd ends (by decide)
            rw [empty.2, List.nil_append, hostState, if_neg notColon, if_pos ends]
            rfl
          · rfl
        · have inside : isTerminator character = false := by simpa using ends
          have noAtSignNext : '@' ∉ buffer ++ [character] := by
            simpa [noAtSign] using Ne.symm notAt
          rw [if_neg ends, takeWhile_inside inside, List.dropWhile_cons_of_pos (by simp [inside]),
            inductionHypothesis noAtSignNext, List.append_assoc, List.singleton_append]

theorem namesOrigin_iff {text : List Char} : NamesOrigin standard origin text ↔
    ∃ host port, HostSplit standard origin false [] (hostAndPort text) host port := by
  constructor
  · rintro ⟨host, port, split, nonempty, hostText, read, isPort, outside⟩
    exact ⟨host, port, split, nonempty, hostText, read, isPort, outside⟩
  · rintro ⟨host, port, isSplit⟩
    exact ⟨host, port, isSplit.split, isSplit.nonempty, isSplit.hostText, isSplit.read, isSplit.isPort, isSplit.outside⟩

theorem specialAuthorityIgnoreSlashesState_eq {text : List Char} :
    specialAuthorityIgnoreSlashesState standard scheme text =
      authorityState standard scheme false [] (text.dropWhile isSlash) := by
  induction text with
  | nil => rfl
  | cons character rest inductionHypothesis =>
      unfold specialAuthorityIgnoreSlashesState
      by_cases slash : isSlash character = true
      · rw [if_pos slash, inductionHypothesis, List.dropWhile_cons_of_pos slash]
      · rw [if_neg slash, List.dropWhile_cons_of_neg slash]

/-- After any slashes the parser answers an origin exactly where the text names it. -/
theorem specialAuthorityIgnoreSlashesState_eq_some {text : List Char} :
    specialAuthorityIgnoreSlashesState standard scheme text = some origin ↔
      origin.scheme = scheme ∧ NamesOrigin standard origin text := by
  have authorityOnly : ∀ character ∈ hostAndPort text, (!isTerminator character) = true := by
    intro character isIn
    have isIn := (List.rtakeWhile_suffix _ _).subset isIn
    exact @List.mem_takeWhile_imp _ (fun character => !isTerminator character) _ _ isIn
  have rest : ((text.dropWhile isSlash).dropWhile fun character => !isTerminator character).takeWhile
      (fun character => !isTerminator character) = [] := by
    rw [List.takeWhile_eq_nil_iff]
    intro nonempty
    exact List.dropWhile_get_zero_not _ _ nonempty
  rw [specialAuthorityIgnoreSlashesState_eq, authorityState_eq List.not_mem_nil, hostState_eq_some, namesOrigin_iff,
    List.nil_append, ← hostAndPort, List.takeWhile_append_of_pos authorityOnly, rest, List.append_nil]

end Authority

/-! ### A link on a page -/

section Relative

variable {standard : Standard} {page : Origin}

theorem hostAndPort_slash {character : Char} {rest : List Char} (slash : isSlash character = true) :
    hostAndPort (character :: rest) = hostAndPort rest := by
  rw [hostAndPort, hostAndPort, List.dropWhile_cons_of_pos slash]

theorem namesOrigin_slash {character : Char} {rest : List Char} (slash : isSlash character = true) :
    NamesOrigin standard page (character :: rest) ↔ NamesOrigin standard page rest := by
  rw [namesOrigin_iff, namesOrigin_iff, hostAndPort_slash slash]

theorem relativeState_eq_page {text : List Char} :
    relativeState standard page text = some page ↔ StaysRelative standard page text := by
  unfold StaysRelative
  cases text with
  | nil => exact iff_of_true rfl fun starts => starts.elim
  | cons first rest =>
      unfold relativeState
      dsimp only
      by_cases firstSlash : isSlash first = true
      · rw [if_pos firstSlash]
        cases rest with
        | nil => exact iff_of_true rfl fun starts => starts.elim
        | cons second others =>
            unfold relativeSlashState
            dsimp only
            by_cases secondSlash : isSlash second = true
            · rw [if_pos secondSlash, specialAuthorityIgnoreSlashesState_eq_some, namesOrigin_slash firstSlash,
                namesOrigin_slash secondSlash]
              simp [StartsWithSlashes, firstSlash, secondSlash]
            · rw [if_neg secondSlash]
              exact iff_of_true rfl fun starts => absurd starts.2 secondSlash
      · rw [if_neg firstSlash]
        refine iff_of_true rfl fun starts => ?_
        cases rest with
        | nil => exact starts.elim
        | cons second others => exact absurd starts.1 firstSlash

theorem specialRelativeOrAuthorityState_eq {text : List Char} :
    specialRelativeOrAuthorityState standard page text = relativeState standard page text := by
  unfold specialRelativeOrAuthorityState
  split <;> rfl

theorem specialAuthoritySlashesState_scheme {scheme : String} {text : List Char}
    (answered : specialAuthoritySlashesState standard scheme text = some page) : page.scheme = scheme := by
  unfold specialAuthoritySlashesState at answered
  split at answered
  · exact (specialAuthorityIgnoreSlashesState_eq_some.mp answered).1
  · exact (specialAuthorityIgnoreSlashesState_eq_some.mp answered).1

theorem afterScheme_eq_page (isWeb : IsWeb page.scheme) {scheme : String} {rest : List Char} :
    afterScheme standard page scheme rest = some page ↔
      (scheme = page.scheme ∧ StaysRelative standard page rest) ∨
        (scheme = "blob" ∧ standard.blobOrigin rest = some page) := by
  have pageSpecial : isSpecial page.scheme = true := by
    rcases isWeb with same | same <;> rw [same] <;> decide
  have blobNotSpecial : isSpecial "blob" = false := by decide
  unfold afterScheme
  by_cases special : isSpecial scheme = true
  · have notBlob : scheme ≠ "blob" := by
      rintro rfl
      rw [blobNotSpecial] at special
      cases special
    rw [if_pos special]
    by_cases same : scheme = page.scheme
    · rw [if_pos same, specialRelativeOrAuthorityState_eq, relativeState_eq_page]
      simp [same, same ▸ notBlob]
    · rw [if_neg same]
      simp only [same, notBlob, false_and, or_false, iff_false]
      intro answered
      exact same (specialAuthoritySlashesState_scheme answered).symm
  · have notPage : scheme ≠ page.scheme := by
      rintro rfl
      exact special pageSpecial
    rw [if_neg special]
    by_cases blob : scheme = "blob"
    · have notBoth : ¬(scheme = page.scheme ∧ StaysRelative standard page rest) := fun both => notPage both.1
      rw [if_pos blob, or_iff_right notBoth, and_iff_right blob]
    · rw [if_neg blob]
      simp [notPage, blob]

/-- Letters of a scheme up to a colon. -/
structure SchemeSplit (text letters rest : List Char) : Prop where
  split : text = letters ++ ':' :: rest
  letters : ∀ letter ∈ letters, isSchemeCharacter letter = true

theorem not_schemeSplit_nil {letters rest : List Char} : ¬SchemeSplit [] letters rest := by
  intro isSplit
  simpa using isSplit.split

theorem schemeSplit_cons_iff {character : Char} (isLetter : isSchemeCharacter character = true)
    {text letters rest : List Char} : SchemeSplit (character :: text) letters rest ↔
      ∃ others, letters = character :: others ∧ SchemeSplit text others rest := by
  constructor
  · intro isSplit
    cases letters with
    | nil =>
        obtain ⟨rfl, _⟩ := List.cons.inj isSplit.split
        exact absurd isLetter (by decide)
    | cons first others =>
        obtain ⟨rfl, same⟩ := List.cons.inj isSplit.split
        exact ⟨others, rfl, same, fun letter isIn => isSplit.letters letter (List.mem_cons_of_mem _ isIn)⟩
  · rintro ⟨others, rfl, isSplit⟩
    exact ⟨by rw [isSplit.split]; rfl, List.forall_mem_cons.mpr ⟨isLetter, isSplit.letters⟩⟩

theorem schemeSplit_stop_iff {character : Char} (notLetter : ¬isSchemeCharacter character = true)
    {text letters rest : List Char} : SchemeSplit (character :: text) letters rest ↔
      character = ':' ∧ letters = [] ∧ rest = text := by
  constructor
  · intro isSplit
    cases letters with
    | nil =>
        obtain ⟨same, sameRest⟩ := List.cons.inj isSplit.split
        exact ⟨same, rfl, sameRest.symm⟩
    | cons first others =>
        obtain ⟨rfl, _⟩ := List.cons.inj isSplit.split
        exact absurd (isSplit.letters character List.mem_cons_self) notLetter
  · rintro ⟨rfl, rfl, rfl⟩
    exact ⟨rfl, by simp⟩

/-- The scheme state reads letters up to a colon, or starts over without a scheme. -/
theorem schemeState_eq_page {whole buffer text : List Char} :
    schemeState standard page whole buffer text = some page ↔
      (∃ letters rest, SchemeSplit text letters rest ∧
        afterScheme standard page (String.ofList (buffer ++ letters.map Char.toLower)) rest = some page) ∨
      ((∀ letters rest, ¬SchemeSplit text letters rest) ∧ StaysRelative standard page whole) := by
  induction text generalizing buffer with
  | nil =>
      rw [schemeState, relativeState_eq_page]
      simp [not_schemeSplit_nil]
  | cons character text inductionHypothesis =>
      rw [schemeState]
      by_cases isLetter : isSchemeCharacter character = true
      · have none : (∀ letters rest, ¬SchemeSplit (character :: text) letters rest) ↔
            ∀ letters rest, ¬SchemeSplit text letters rest := by
          constructor
          · intro noSplit letters rest isSplit
            exact noSplit _ rest ((schemeSplit_cons_iff isLetter).mpr ⟨letters, rfl, isSplit⟩)
          · intro noSplit letters rest isSplit
            obtain ⟨others, _, othersSplit⟩ := (schemeSplit_cons_iff isLetter).mp isSplit
            exact noSplit others rest othersSplit
        rw [if_pos isLetter, inductionHypothesis, none]
        apply or_congr_left
        constructor
        · rintro ⟨letters, rest, isSplit, after⟩
          refine ⟨_, rest, (schemeSplit_cons_iff isLetter).mpr ⟨letters, rfl, isSplit⟩, ?_⟩
          rw [List.append_assoc] at after
          exact after
        · rintro ⟨_, rest, isSplit, after⟩
          obtain ⟨others, rfl, othersSplit⟩ := (schemeSplit_cons_iff isLetter).mp isSplit
          refine ⟨others, rest, othersSplit, ?_⟩
          rw [List.append_assoc]
          exact after
      · rw [if_neg isLetter]
        by_cases colon : character = ':'
        · have stops : SchemeSplit (character :: text) [] text :=
            (schemeSplit_stop_iff isLetter).mpr ⟨colon, rfl, rfl⟩
          rw [if_pos colon, or_iff_left fun noSplit => noSplit.1 _ _ stops]
          constructor
          · intro after
            exact ⟨[], text, stops, by rwa [List.map_nil, List.append_nil]⟩
          · rintro ⟨letters, rest, isSplit, after⟩
            obtain ⟨_, rfl, rfl⟩ := (schemeSplit_stop_iff isLetter).mp isSplit
            rwa [List.map_nil, List.append_nil] at after
        · rw [if_neg colon, relativeState_eq_page]
          simp [schemeSplit_stop_iff isLetter, colon]

theorem hasScheme_cons_iff {first : Char} {text : List Char} {scheme : String} {rest : List Char} :
    HasScheme (first :: text) scheme rest ↔ first.isAlpha = true ∧ ∃ letters, SchemeSplit text letters rest ∧
      scheme = String.ofList (first.toLower :: letters.map Char.toLower) := by
  constructor
  · rintro ⟨other, letters, same, alpha, all, isScheme⟩
    obtain ⟨rfl, sameText⟩ := List.cons.inj same
    exact ⟨alpha, letters, ⟨sameText, all⟩, isScheme⟩
  · rintro ⟨alpha, letters, isSplit, isScheme⟩
    exact ⟨first, letters, congrArg _ isSplit.split, alpha, isSplit.letters, isScheme⟩

/-- The links that lead to the page's own origin. -/
theorem resolve_eq_iff (isWeb : IsWeb page.scheme) {text : List Char} :
    resolve standard page text = some page ↔ StaysAt standard page (cleaned text) := by
  rw [resolve]
  cases cleaned text with
  | nil =>
      have noScheme : ∀ scheme rest, ¬HasScheme [] scheme rest := by
        rintro scheme rest ⟨first, letters, same, _⟩
        cases same
      rw [schemeStartState, relativeState_eq_page]
      simp [StaysAt, noScheme]
  | cons first text =>
      rw [schemeStartState]
      by_cases alpha : first.isAlpha = true
      · rw [if_pos alpha, schemeState_eq_page]
        simp only [afterScheme_eq_page isWeb, StaysAt, hasScheme_cons_iff, alpha, true_and]
        constructor
        · rintro (⟨letters, rest, isSplit, ⟨same, stays⟩ | ⟨blob, isPage⟩⟩ | ⟨noSplit, stays⟩)
          · exact Or.inr (Or.inl ⟨rest, ⟨letters, isSplit, same.symm⟩, stays⟩)
          · exact Or.inr (Or.inr ⟨rest, ⟨letters, isSplit, blob.symm⟩, isPage⟩)
          · refine Or.inl ⟨?_, stays⟩
            rintro _ rest ⟨letters, isSplit, _⟩
            exact noSplit letters rest isSplit
        · rintro (⟨noScheme, stays⟩ | ⟨rest, ⟨letters, isSplit, same⟩, stays⟩ | ⟨rest, ⟨letters, isSplit, blob⟩, isPage⟩)
          · exact Or.inr ⟨fun letters rest isSplit => noScheme _ rest ⟨letters, isSplit, rfl⟩, stays⟩
          · exact Or.inl ⟨letters, rest, isSplit, Or.inl ⟨same.symm, stays⟩⟩
          · exact Or.inl ⟨letters, rest, isSplit, Or.inr ⟨blob.symm, isPage⟩⟩
      · rw [if_neg alpha, relativeState_eq_page]
        simp [StaysAt, hasScheme_cons_iff, alpha]

end Relative

end UrlOrigin
