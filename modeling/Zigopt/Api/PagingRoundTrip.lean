/-
Module: Zigopt.Api.PagingRoundTrip
Layer: Api
Purpose: The values of a pager come back from the client as they went: exactly the tuples whose integers fit into 64 bits
  and whose datetimes are ones in UTC and in the default time zone make the way. A marker of ASCII characters is
  decoded or refused with the error for the client.
Main exports: Sendable, pagerSymbol_buildSymbol, roundTrip, roundTrip_returns_iff, marker_returns_iff
-/
import Zigopt.Api.PagingWire

namespace Zigopt.Api

open Raising
open Pagination (FieldValue Key InInt64)

variable (protobuf : PagingProtobuf) (offset : ℤ)

/-! ### The values of a marker -/

/-- A float of Python is one of the format. -/
def IsPython : FieldValue → Prop
  | .float (.finite value) => Binary64.IsDouble value
  | _ => True

/-- What a symbol can be made of. -/
def Sendable : FieldValue → Prop
  | .int value => InInt64 value
  | .float .inf => False
  | .float .negInf => False
  | .datetime microseconds => InDatetimeRange microseconds ∧ InDatetimeRange (microseconds + offset)
  | _ => True

theorem buildSymbol_isOk_iff (value : FieldValue) :
    (∃ symbol, buildSymbol protobuf offset value = .ok symbol) ↔ Sendable offset value := by
  cases value with
  | int value =>
      rw [buildSymbol, setIntValue, Sendable]
      by_cases fits : InInt64 value
      · rw [if_pos fits]
        exact ⟨fun _ => fits, fun _ => ⟨_, rfl⟩⟩
      · rw [if_neg fits]
        refine ⟨?_, fun holds => absurd holds fits⟩
        rintro ⟨symbol, built⟩
        cases built
  | datetime microseconds =>
      rw [buildSymbol, awareDatetimeToNaiveDatetime, Sendable]
      by_cases inRange : InDatetimeRange microseconds ∧ InDatetimeRange (microseconds + offset)
      · rw [if_pos inRange]
        exact ⟨fun _ => inRange, fun _ => ⟨_, rfl⟩⟩
      · rw [if_neg inRange]
        refine ⟨?_, fun holds => absurd holds inRange⟩
        rintro ⟨symbol, built⟩
        cases built
  | float value =>
      cases value with
      | finite value => exact ⟨fun _ => trivial, fun _ => ⟨_, rfl⟩⟩
      | inf =>
          refine ⟨?_, fun impossible => impossible.elim⟩
          rintro ⟨symbol, built⟩
          cases built
      | negInf =>
          refine ⟨?_, fun impossible => impossible.elim⟩
          rintro ⟨symbol, built⟩
          cases built
  | null => exact ⟨fun _ => trivial, fun _ => ⟨_, rfl⟩⟩
  | str value => exact ⟨fun _ => trivial, fun _ => ⟨_, rfl⟩⟩
  | bool value => exact ⟨fun _ => trivial, fun _ => ⟨_, rfl⟩⟩

/-- A datetime of the default time zone is in the range and comes back as the same moment. -/
theorem naive_eq_ok {microseconds naive : ℤ}
    (converted : awareDatetimeToNaiveDatetime offset microseconds = .ok naive) :
    InDatetimeRange naive ∧ naiveDatetimeToAwareDatetime offset naive = microseconds := by
  rw [awareDatetimeToNaiveDatetime] at converted
  split at converted
  · next inRange =>
      cases converted
      refine ⟨inRange.2, ?_⟩
      rw [naiveDatetimeToAwareDatetime, add_sub_cancel_right]
  · cases converted

theorem getValue_buildSymbol {value : FieldValue} {symbol : PagingSymbol}
    (built : buildSymbol protobuf offset value = .ok symbol) :
    getValueOfPagingSymbol protobuf offset symbol = .ok value := by
  cases value with
  | int value =>
      rw [buildSymbol, setIntValue] at built
      split at built
      · cases built
        rfl
      · cases built
  | datetime microseconds =>
      obtain ⟨naive, converted, isSymbol⟩ := bind_eq_ok.mp built
      obtain ⟨inRange, returns⟩ := naive_eq_ok offset converted
      cases isSymbol
      rw [getValueOfPagingSymbol]
      dsimp only
      rw [protobuf.toDatetime_fromDatetime naive inRange]
      dsimp only
      rw [returns]
  | float value =>
      cases value with
      | finite value =>
          cases built
          rfl
      | inf => cases built
      | negInf => cases built
  | null =>
      cases built
      rfl
  | str value =>
      cases built
      rfl
  | bool value =>
      cases built
      rfl

/-- The symbol as the pager has it, whose timestamps are moments. -/
def pagerSymbol (symbol : PagingSymbol) : Option Pagination.PagingSymbol :=
  match symbol.type with
  | none => some .unset
  | some .nullValue => some .nullValue
  | some (.timestampValue value) =>
      (protobuf.toDatetime value).map fun naive => .timestampValue (naiveDatetimeToAwareDatetime offset naive)
  | some (.doubleValue value) => some (.doubleValue value)
  | some (.intValue value) => some (.intValue value)
  | some (.stringValue value) => some (.stringValue value)
  | some (.boolValue value) => some (.boolValue value)

/-- The pager makes the same symbol of the value. -/
theorem pagerSymbol_buildSymbol {value : FieldValue} {symbol : PagingSymbol}
    (built : buildSymbol protobuf offset value = .ok symbol) :
    ∃ ofPager, pagerSymbol protobuf offset symbol = some ofPager ∧ Pagination.buildSymbol value = .ok ofPager := by
  cases value with
  | int value =>
      rw [buildSymbol, setIntValue] at built
      rw [Pagination.buildSymbol, Pagination.setIntValue]
      split at built
      · next fits =>
          cases built
          exact ⟨.intValue value, rfl, if_pos fits⟩
      · cases built
  | datetime microseconds =>
      obtain ⟨naive, converted, isSymbol⟩ := bind_eq_ok.mp built
      obtain ⟨inRange, returns⟩ := naive_eq_ok offset converted
      cases isSymbol
      refine ⟨.timestampValue microseconds, ?_, rfl⟩
      rw [pagerSymbol]
      dsimp only
      rw [protobuf.toDatetime_fromDatetime naive inRange, Option.map_some, returns]
  | float value =>
      cases value with
      | finite value =>
          cases built
          exact ⟨_, rfl, rfl⟩
      | inf => cases built
      | negInf => cases built
  | null =>
      cases built
      exact ⟨_, rfl, rfl⟩
  | str value =>
      cases built
      exact ⟨_, rfl, rfl⟩
  | bool value =>
      cases built
      exact ⟨_, rfl, rfl⟩

theorem fits_buildSymbol {value : FieldValue} (isPython : IsPython value) {symbol : PagingSymbol}
    (built : buildSymbol protobuf offset value = .ok symbol) : ∀ type ∈ symbol.type, type.Fits := by
  intro type isType
  cases value with
  | int value =>
      rw [buildSymbol, setIntValue] at built
      split at built
      · next fits =>
          cases built
          cases isType
          exact fits
      · cases built
  | datetime microseconds =>
      obtain ⟨naive, converted, isSymbol⟩ := bind_eq_ok.mp built
      cases isSymbol
      cases isType
      exact protobuf.fromDatetime_fits naive (naive_eq_ok offset converted).1
  | float value =>
      cases value with
      | finite value =>
          cases built
          cases isType
          exact isPython
      | inf => cases built
      | negInf => cases built
  | null =>
      cases built
      cases isType
      trivial
  | str value =>
      cases built
      cases isType
      trivial
  | bool value =>
      cases built
      cases isType
      trivial

/-! ### The marker -/

theorem mapM_isOk_iff {ε α β : Type} {step : α → Except ε β} {items : List α} :
    (∃ answers, items.mapM step = .ok answers) ↔ ∀ item ∈ items, ∃ answer, step item = .ok answer := by
  constructor
  · rintro ⟨answers, answered⟩ item member
    obtain ⟨answer, _, isAnswer⟩ := exists_answer (mapM_eq_ok.mp answered) member
    exact ⟨answer, isAnswer⟩
  · intro each
    have related : ∀ item ∈ items, ∃ answer, step item = .ok answer ∧ step item = .ok answer := by
      intro item member
      obtain ⟨answer, isAnswer⟩ := each item member
      exact ⟨answer, isAnswer, isAnswer⟩
    obtain ⟨answers, answered, _⟩ := mapM_of_each related
    exact ⟨answers, answered⟩

theorem build_isOk_iff (key : Key) :
    (∃ marker, buildMarkerFromFieldValues protobuf offset key = .ok marker) ↔
      ∀ value ∈ key, Sendable offset value := by
  have symbols : (∃ symbols, key.mapM (buildSymbol protobuf offset) = .ok symbols) ↔
      ∀ value ∈ key, Sendable offset value := by
    rw [mapM_isOk_iff]
    exact forall₂_congr fun value _ => buildSymbol_isOk_iff protobuf offset value
  rw [← symbols, buildMarkerFromFieldValues]
  constructor
  · rintro ⟨marker, built⟩
    obtain ⟨made, areMade, _⟩ := bind_eq_ok.mp built
    exact ⟨made, areMade⟩
  · rintro ⟨made, areMade⟩
    rw [areMade]
    exact ⟨_, rfl⟩

variable {key : Key} {marker : PagingMarker}

/-- The symbols of the marker, each made of the value in its place. -/
theorem symbols_of_build (built : buildMarkerFromFieldValues protobuf offset key = .ok marker) :
    List.Forall₂ (fun value symbol => buildSymbol protobuf offset value = .ok symbol) key marker.symbols := by
  obtain ⟨symbols, areSymbols, isMarker⟩ := bind_eq_ok.mp built
  cases isMarker
  exact mapM_eq_ok.mp areSymbols

theorem getFieldValues_build (built : buildMarkerFromFieldValues protobuf offset key = .ok marker) :
    getFieldValuesFromMarker protobuf offset marker = .ok key := by
  rw [getFieldValuesFromMarker, mapM_eq_ok]
  exact (symbols_of_build protobuf offset built).flip.imp fun _ _ => getValue_buildSymbol protobuf offset

theorem fits_build (isPython : ∀ value ∈ key, IsPython value)
    (built : buildMarkerFromFieldValues protobuf offset key = .ok marker) : marker.Fits := by
  intro symbol member
  obtain ⟨value, ofKey, isMade⟩ := exists_item (symbols_of_build protobuf offset built) member
  exact fits_buildSymbol protobuf offset (isPython value ofKey) isMade

/-! ### The text -/

theorem letter_isAscii : ∀ value, (urlSafe.letter value).toNat < 128 := by decide

theorem isAscii_padded {characters : List Char}
    (letters : ∀ character ∈ characters, ∃ value, character = urlSafe.letter value) :
    isAscii (String.ofList (Base64.padded characters)) = true := by
  rw [isAscii, String.toList_ofList, List.all_eq_true]
  intro character member
  apply decide_eq_true
  have isLetterOrPad : character ∈ characters ∨ character = '=' := by
    unfold Base64.padded at member
    split at member
    · rw [List.mem_append, List.mem_replicate] at member
      exact member.imp_right And.right
    · exact .inl member
  cases isLetterOrPad with
  | inl isLetter =>
      obtain ⟨value, rfl⟩ := letters character isLetter
      exact letter_isAscii value
  | inr isPad =>
      rw [isPad]
      decide

/-- Bytes come back from their text. -/
theorem decode_encodeMarker (bytes : List UInt8) :
    decodeBase64MarkerWithoutPadding (encodeBase64MarkerWithoutPadding bytes) = .ok bytes := by
  rw [decodeBase64MarkerWithoutPadding, encodeBase64MarkerWithoutPadding, String.toList_ofList, urlsafeB64decode,
    if_pos (isAscii_padded (Base64.stripped_encode_letters urlSafe bytes)), String.toList_ofList,
    Base64.decode_padded_stripped]
  rfl

theorem encodeMarker_ne_empty {bytes : List UInt8} (some : bytes ≠ []) : encodeBase64MarkerWithoutPadding bytes ≠ "" := by
  intro empty
  apply Base64.stripped_encode_ne_nil urlSafe some
  have same := congrArg String.toList empty
  rwa [encodeBase64MarkerWithoutPadding, String.toList_ofList] at same

/-- The bytes of a text are parsed. -/
theorem deserialize_of_bytes {text : String} {bytes : List UInt8} (notEmpty : text ≠ "")
    (decoded : decodeBase64MarkerWithoutPadding text = .ok bytes) :
    deserializePagingMarker protobuf text =
      (protobuf.parseFromString bytes).elim (.error (.badParam s!"Invalid paging marker: {text}")) .ok := by
  rw [deserializePagingMarker, if_neg notEmpty, decoded]
  dsimp only
  cases protobuf.parseFromString bytes <;> rfl

theorem deserialize_serialize (fits : marker.Fits) (notEmpty : marker.symbols ≠ []) :
    ∃ text, serializePagingMarker protobuf marker = .ok text ∧ deserializePagingMarker protobuf text = .ok marker := by
  have someText := encodeMarker_ne_empty (protobuf.serialize_ne_nil marker notEmpty)
  refine ⟨encodeBase64MarkerWithoutPadding (protobuf.serializeToString marker), if_neg someText, ?_⟩
  rw [deserialize_of_bytes protobuf someText (decode_encodeMarker _), protobuf.parse_serialize marker fits,
    Option.elim_some]

/-- A text of ASCII characters is decoded, or it is refused with the error for the client. -/
theorem deserialize_ascii {text : String} (ascii : isAscii text = true) :
    (∃ marker, deserializePagingMarker protobuf text = .ok marker) ∨
      ∃ message, deserializePagingMarker protobuf text = .error (.badParam message) := by
  have padsAscii : isAscii (String.ofList (Base64.padded text.toList)) = true := by
    rw [isAscii, List.all_eq_true] at ascii
    rw [isAscii, String.toList_ofList, List.all_eq_true]
    intro character member
    unfold Base64.padded at member
    split at member
    · rw [List.mem_append, List.mem_replicate] at member
      cases member with
      | inl ofText => exact ascii character ofText
      | inr isPad =>
          rw [isPad.2]
          decide
    · exact ascii character member
  have decoder : decodeBase64MarkerWithoutPadding text =
      (Base64.decode urlSafe (String.ofList (Base64.padded text.toList)).toList).mapError .binascii := by
    rw [decodeBase64MarkerWithoutPadding, urlsafeB64decode, if_pos padsAscii]
  by_cases empty : text = ""
  · rw [deserializePagingMarker, if_pos empty]
    exact .inr ⟨_, rfl⟩
  · cases decoded : Base64.decode urlSafe (String.ofList (Base64.padded text.toList)).toList with
    | error failure =>
        rw [decoded] at decoder
        rw [deserializePagingMarker, if_neg empty, decoder]
        exact .inr ⟨_, rfl⟩
    | ok bytes =>
        rw [decoded] at decoder
        rw [deserialize_of_bytes protobuf empty decoder]
        cases protobuf.parseFromString bytes with
        | none => exact .inr ⟨_, rfl⟩
        | some marker => exact .inl ⟨marker, rfl⟩

/-! ### The whole way -/

/-- From the values of a result to the tuple that a query compares with. -/
def roundTrip (fields : List FieldType) (key : Key) : Except MarkerError (List RhsValue) := do
  let marker ← buildMarkerFromFieldValues protobuf offset key
  let serializedMarker ← serializePagingMarker protobuf marker
  let received ← deserializePagingMarker protobuf serializedMarker
  markerToRhs protobuf offset fields received

theorem map_value_zipWith {fields : List FieldType} (sameLength : fields.length = key.length) :
    (List.zipWith castValue fields key).map RhsValue.value = key := by
  induction fields generalizing key with
  | nil => rw [List.zipWith_nil_left, List.map_nil, List.length_eq_zero_iff.mp sameLength.symm]
  | cons field fields inductionHypothesis =>
      cases key with
      | nil => cases sameLength
      | cons value key =>
          rw [List.zipWith_cons_cons, List.map_cons, inductionHypothesis (Nat.succ.inj sameLength)]
          cases field <;> rfl

/-- The values that a marker is made of come back. -/
theorem roundTrip_of_build {fields : List FieldType} (notEmpty : key ≠ []) (sameLength : fields.length = key.length)
    (isPython : ∀ value ∈ key, IsPython value)
    (built : buildMarkerFromFieldValues protobuf offset key = .ok marker) :
    roundTrip protobuf offset fields key = .ok (List.zipWith castValue fields key) := by
  have asMany : key.length = marker.symbols.length := (symbols_of_build protobuf offset built).length_eq
  have someSymbols : marker.symbols ≠ [] := by
    rw [← List.length_pos_iff, ← asMany]
    exact List.length_pos_iff.mpr notEmpty
  obtain ⟨text, serialized, deserialized⟩ :=
    deserialize_serialize protobuf (fits_build protobuf offset isPython built) someSymbols
  rw [roundTrip, built, ok_bind, serialized, ok_bind, deserialized, ok_bind, markerToRhs,
    if_neg (not_not.mpr (sameLength.trans asMany)), getFieldValues_build protobuf offset built]
  rfl

/-- A key comes back from its marker exactly where every value of it can be sent. -/
theorem roundTrip_returns_iff {fields : List FieldType} (notEmpty : key ≠ [])
    (sameLength : fields.length = key.length) (isPython : ∀ value ∈ key, IsPython value) :
    (∃ rhs, roundTrip protobuf offset fields key = .ok rhs ∧ rhs.map RhsValue.value = key) ↔
      ∀ value ∈ key, Sendable offset value := by
  rw [← build_isOk_iff protobuf offset key]
  constructor
  · rintro ⟨rhs, returned, _⟩
    obtain ⟨marker, built, _⟩ := bind_eq_ok.mp returned
    exact ⟨marker, built⟩
  · rintro ⟨marker, built⟩
    exact ⟨_, roundTrip_of_build protobuf offset notEmpty sameLength isPython built, map_value_zipWith sameLength⟩

/-- A tuple of values makes the way to the client and back exactly if all of its values can be sent. What comes from the
    client in ASCII is decoded or refused with the error it gets to see, also where it does not have a symbol for each
    field. -/
theorem marker_returns_iff (fields : List FieldType) :
    (∀ key : Key, key ≠ [] → fields.length = key.length → (∀ value ∈ key, IsPython value) →
      ((∃ rhs, roundTrip protobuf offset fields key = .ok rhs ∧ rhs.map RhsValue.value = key) ↔
        ∀ value ∈ key, Sendable offset value)) ∧
    (∀ text, isAscii text = true →
      (∃ marker, deserializePagingMarker protobuf text = .ok marker) ∨
        ∃ message, deserializePagingMarker protobuf text = .error (.badParam message)) ∧
    ∀ marker : PagingMarker, fields.length ≠ marker.symbols.length →
      markerToRhs protobuf offset fields marker = .error (.badParam "Invalid paging marker") := by
  refine ⟨?_, ?_, ?_⟩
  · intro key notEmpty sameLength isPython
    exact roundTrip_returns_iff protobuf offset notEmpty sameLength isPython
  · intro text ascii
    exact deserialize_ascii protobuf ascii
  · intro marker otherLength
    rw [markerToRhs, if_pos otherLength]

/-- A value of each kind. -/
def mixedKey : Key := [.null, .datetime (-1), .float (.finite (1 / 2)), .str "é", .bool true, .int (-5)]

theorem isPython_mixedKey : ∀ value ∈ mixedKey, IsPython value := by
  have isHalf : Binary64.IsDouble (1 / 2) := by
    refine ⟨2 ^ 52, 1021, by decide, by decide, ?_⟩
    have positive : (0 : ℚ) ≤ 1 / 2 := by positivity
    have halved (power : ℚ) : 1 / 2 * (power * 2) = power := by ring
    have exponents : 52 + 1021 = 1073 := rfl
    rw [Binary64.units, Binary64.scale, abs_of_nonneg positive, Nat.cast_pow, Nat.cast_ofNat, ← pow_add, exponents,
      pow_succ (2 : ℚ) 1073, halved]
  simp only [mixedKey, List.forall_mem_cons, IsPython, isHalf, true_and]
  exact fun _ member => absurd member List.not_mem_nil

/-- A marker of values of all types comes back, byte by byte over the wire format. -/
theorem marker_returns_mixed :
    ∃ rhs, roundTrip wireProtobuf 0 [.jsonb, .other, .other, .other, .other, .other] mixedKey = .ok rhs ∧
      rhs.map RhsValue.value = mixedKey := by
  have sendable : ∀ value ∈ mixedKey, Sendable 0 value := by
    simp only [mixedKey, List.forall_mem_cons, Sendable, true_and]
    exact ⟨by decide, by decide, fun _ member => absurd member List.not_mem_nil⟩
  exact ((marker_returns_iff wireProtobuf 0 [.jsonb, .other, .other, .other, .other, .other]).1 mixedKey
    (List.cons_ne_nil _ _) rfl isPython_mixedKey).mpr sendable

/-- An integer beyond the 64 bits has no marker, and a marker with another character than those of ASCII is refused
    by the base64 with an error that is not for the client. -/
theorem marker_lost :
    roundTrip wireProtobuf 0 [.other] [.int (2 ^ 63)] = .error (.valueError "Value out of range") ∧
      deserializePagingMarker wireProtobuf "é" =
        .error (.valueError "string argument should contain only ASCII characters") := by
  constructor
  · rfl
  · rfl

end Zigopt.Api
