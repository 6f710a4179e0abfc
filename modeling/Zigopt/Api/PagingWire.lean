/-
Module: Zigopt.Api.PagingWire
Layer: Api
Purpose: The messages of `paging.proto` in the wire format, with the datetimes of a `Timestamp`: protobuf as the paging
  markers rely on it.
Main exports: SymbolType.field, PagingMarker.write, PagingMarker.read, read_write, wireProtobuf
-/
import Zigopt.Api.PagingMarker
import Zigopt.Lib.WireFormat

namespace Zigopt.Api

open WireFormat (Bytes Field)
open Pagination (InInt64)

/-! ### Integers -/

/-- The bits of an integer of 64 bits. -/
def wordOfInt (value : ℤ) : ℕ := (value % 2 ^ 64).toNat

def intOfWord (word : ℕ) : ℤ := if word < 2 ^ 63 then word else word - 2 ^ 64

theorem intOfWord_wordOfInt {value : ℤ} (fits : InInt64 value) : intOfWord (wordOfInt value) = value := by
  obtain ⟨least, greatest⟩ := fits
  unfold intOfWord wordOfInt
  split <;> omega

/-! ### Timestamps -/

/-- A field that is zero is left out. -/
def intField (number : ℕ) (value : ℤ) : List Field :=
  if value = 0 then [] else [⟨number, .varint (wordOfInt value)⟩]

def intNamed (fields : List Field) (number : ℕ) : ℤ :=
  fields.foldl (fun value field =>
    match field.payload with
    | .varint word => if field.number = number then intOfWord word else value
    | _ => value) 0

def Timestamp.fields (timestamp : Timestamp) : List Field :=
  intField 1 timestamp.seconds ++ intField 2 timestamp.nanos

def Timestamp.ofFields (fields : List Field) : Timestamp where
  seconds := intNamed fields 1
  nanos := intNamed fields 2

def Timestamp.fromDatetime (naive : ℤ) : Timestamp where
  seconds := naive / 1000000
  nanos := naive % 1000000 * 1000

/-- The nanoseconds are cut down to microseconds, towards zero. -/
def Timestamp.toDatetime (timestamp : Timestamp) : Option ℤ :=
  let naive := timestamp.seconds * 1000000 + timestamp.nanos.tdiv 1000
  if InDatetimeRange naive then some naive else none

theorem Timestamp.ofFields_fields {timestamp : Timestamp} (fits : timestamp.Fits) :
    Timestamp.ofFields timestamp.fields = timestamp := by
  have seconds : intOfWord (wordOfInt timestamp.seconds) = timestamp.seconds := by
    apply intOfWord_wordOfInt
    have bounds := fits.seconds
    exact ⟨by omega, by omega⟩
  have nanos : intOfWord (wordOfInt timestamp.nanos) = timestamp.nanos := by
    apply intOfWord_wordOfInt
    have bounds := fits.nanos
    exact ⟨by omega, by omega⟩
  obtain ⟨secondsValue, nanosValue⟩ := timestamp
  dsimp only at seconds nanos
  by_cases noSeconds : secondsValue = 0 <;> by_cases noNanos : nanosValue = 0 <;>
    simp [Timestamp.ofFields, Timestamp.fields, intField, intNamed, noSeconds, noNanos, seconds, nanos]

theorem Timestamp.fromDatetime_fits {naive : ℤ} (inRange : InDatetimeRange naive) :
    (Timestamp.fromDatetime naive).Fits := by
  obtain ⟨least, greatest⟩ := inRange
  constructor
  · dsimp only [Timestamp.fromDatetime]
    omega
  · dsimp only [Timestamp.fromDatetime]
    omega

theorem Timestamp.toDatetime_fromDatetime {naive : ℤ} (inRange : InDatetimeRange naive) :
    (Timestamp.fromDatetime naive).toDatetime = some naive := by
  have nonneg : 0 ≤ naive % 1000000 * 1000 := by omega
  have micros : (naive % 1000000 * 1000).tdiv 1000 = naive % 1000000 := by
    rw [Int.tdiv_eq_ediv_of_nonneg nonneg]
    omega
  have whole : naive / 1000000 * 1000000 + naive % 1000000 = naive := by omega
  rw [Timestamp.toDatetime, Timestamp.fromDatetime]
  dsimp only
  rw [micros, whole, if_pos inRange]

/-! ### Symbols -/

def doubleWord : Pagination.PyFloat → ℕ
  | .finite value => Binary64.encode value
  | .inf => Binary64.infinity false
  | .negInf => Binary64.infinity true

/-- A NaN is not read. -/
def doubleOfWord (word : ℕ) : Option Pagination.PyFloat :=
  match Binary64.decode word with
  | .finite value => some (.finite value)
  | .infinite true => some .negInf
  | .infinite false => some .inf
  | .nan => none

/-- A symbol on the wire, each kind under its own field number. -/
def SymbolType.field : SymbolType → Field
  | .doubleValue value => ⟨1, .word64 (doubleWord value)⟩
  | .intValue value => ⟨2, .varint (wordOfInt value)⟩
  | .nullValue => ⟨3, .varint 0⟩
  | .stringValue value => ⟨4, .bytes (WireFormat.writeText value)⟩
  | .boolValue value => ⟨5, .varint value.toNat⟩
  | .timestampValue value => ⟨6, .bytes (WireFormat.writeFields value.fields)⟩

/-- The member of the oneof that a field sets, after the one that was set before. A field that is none of them, or has
    another kind of payload, sets none. -/
def SymbolType.ofField (before : Option SymbolType) (field : Field) : Option (Option SymbolType) :=
  match field with
  | ⟨1, .word64 word⟩ => (doubleOfWord word).map fun value => some (.doubleValue value)
  | ⟨2, .varint word⟩ => some (some (.intValue (intOfWord word)))
  | ⟨3, .varint 0⟩ => some (some .nullValue)
  | ⟨4, .bytes content⟩ => (WireFormat.readText content).map fun value => some (.stringValue value)
  | ⟨5, .varint word⟩ => some (some (.boolValue (word ≠ 0)))
  | ⟨6, .bytes content⟩ =>
      (WireFormat.readFields content).map fun fields => some (.timestampValue (Timestamp.ofFields fields))
  | _ => some before

/-- A symbol is at most one field. -/
def PagingSymbol.write (symbol : PagingSymbol) : Bytes :=
  WireFormat.writeFields (symbol.type.toList.map SymbolType.field)

/-- Of several fields of the `oneof` the last is the one that counts. -/
def PagingSymbol.read (bytes : Bytes) : Option PagingSymbol := do
  let fields ← WireFormat.readFields bytes
  return ⟨← fields.foldlM SymbolType.ofField none⟩

theorem doubleWord_lt {value : Pagination.PyFloat} (fits : (SymbolType.doubleValue value).Fits) :
    doubleWord value < 256 ^ 8 := by
  cases value with
  | finite value => exact Binary64.encode_lt fits
  | inf => decide
  | negInf => decide

theorem doubleOfWord_doubleWord {value : Pagination.PyFloat} (fits : (SymbolType.doubleValue value).Fits) :
    doubleOfWord (doubleWord value) = some value := by
  cases value with
  | finite value =>
      rw [doubleOfWord, doubleWord, Binary64.decode_encode fits]
  | inf => rw [doubleOfWord, doubleWord, Binary64.decode_infinity]
  | negInf => rw [doubleOfWord, doubleWord, Binary64.decode_infinity]

theorem Timestamp.payloads_fit (timestamp : Timestamp) : ∀ field ∈ timestamp.fields, field.payload.Fits := by
  intro field member
  rcases List.mem_append.mp member with isSeconds | isNanos
  · unfold intField at isSeconds
    split at isSeconds
    · cases isSeconds
    · rw [List.mem_singleton.mp isSeconds]
      trivial
  · unfold intField at isNanos
    split at isNanos
    · cases isNanos
    · rw [List.mem_singleton.mp isNanos]
      trivial

theorem SymbolType.payload_fits {type : SymbolType} (fits : type.Fits) : type.field.payload.Fits := by
  cases type with
  | doubleValue value => exact doubleWord_lt fits
  | _ => trivial

theorem SymbolType.ofField_field {type : SymbolType} (fits : type.Fits) (before : Option SymbolType) :
    SymbolType.ofField before type.field = some (some type) := by
  cases type with
  | doubleValue value => simp only [field, ofField, doubleOfWord_doubleWord fits, Option.map_some]
  | intValue value => simp only [field, ofField, intOfWord_wordOfInt fits]
  | nullValue => rfl
  | stringValue value => simp only [field, ofField, WireFormat.readText_write, Option.map_some]
  | boolValue value => cases value <;> rfl
  | timestampValue value =>
      simp only [field, ofField, WireFormat.readFields_write value.payloads_fit, Option.map_some,
        Timestamp.ofFields_fields fits]

/-- A symbol that fits the wire is read back. -/
theorem PagingSymbol.read_write {symbol : PagingSymbol} (fits : ∀ type ∈ symbol.type, type.Fits) :
    PagingSymbol.read symbol.write = some symbol := by
  obtain ⟨type⟩ := symbol
  cases type with
  | none => rfl
  | some type =>
      have typeFits := fits type rfl
      have payloadFits : ∀ field ∈ [type.field], field.payload.Fits := by
        intro field member
        rw [List.mem_singleton.mp member]
        exact type.payload_fits typeFits
      rw [PagingSymbol.write, PagingSymbol.read]
      change (do
        let fields ← WireFormat.readFields (WireFormat.writeFields [type.field])
        return (⟨← fields.foldlM SymbolType.ofField none⟩ : PagingSymbol)) = _
      rw [WireFormat.readFields_write payloadFits]
      simp [SymbolType.ofField_field typeFits]

/-! ### Markers -/

/-- A symbol as a field of the marker. -/
def PagingSymbol.field (symbol : PagingSymbol) : Field := ⟨1, .bytes symbol.write⟩

/-- A marker is its symbols, each written with its length before it. -/
def PagingMarker.write (marker : PagingMarker) : Bytes := WireFormat.writeFields (marker.symbols.map PagingSymbol.field)

/-- The symbol that a field adds. -/
def PagingSymbol.ofField (field : Field) : Option (List PagingSymbol) :=
  match field with
  | ⟨1, .bytes content⟩ => (PagingSymbol.read content).map fun symbol => [symbol]
  | _ => some []

/-- Reading a marker; a field that is none of its symbols is left out. -/
def PagingMarker.read (bytes : Bytes) : Option PagingMarker := do
  let fields ← WireFormat.readFields bytes
  return ⟨(← fields.mapM PagingSymbol.ofField).flatten⟩

theorem symbols_of_fields {symbols : List PagingSymbol} (fit : ∀ symbol ∈ symbols, ∀ type ∈ symbol.type, type.Fits) :
    (symbols.map PagingSymbol.field).mapM PagingSymbol.ofField = some (symbols.map fun symbol => [symbol]) := by
  induction symbols with
  | nil => rfl
  | cons symbol symbols inductionHypothesis =>
      rw [List.forall_mem_cons] at fit
      have first : PagingSymbol.ofField symbol.field = some [symbol] := by
        simp only [PagingSymbol.field, PagingSymbol.ofField, PagingSymbol.read_write fit.1, Option.map_some]
      rw [List.map_cons, List.mapM_cons, first, inductionHypothesis fit.2]
      rfl

/-- A marker whose symbols fit the wire is read back. -/
theorem PagingMarker.read_write {marker : PagingMarker} (fits : marker.Fits) :
    PagingMarker.read marker.write = some marker := by
  have payloadFits : ∀ field ∈ marker.symbols.map PagingSymbol.field, field.payload.Fits := by
    intro field member
    obtain ⟨symbol, _, rfl⟩ := List.mem_map.mp member
    trivial
  have flat : (marker.symbols.map fun symbol => [symbol]).flatten = marker.symbols := by
    rw [← List.flatMap_def, List.flatMap_singleton']
  rw [PagingMarker.write, PagingMarker.read, WireFormat.readFields_write payloadFits]
  simp [symbols_of_fields fits, flat]

theorem PagingMarker.write_ne_nil {marker : PagingMarker} (some : marker.symbols ≠ []) : marker.write ≠ [] := by
  obtain ⟨symbols⟩ := marker
  cases symbols with
  | nil => exact absurd rfl some
  | cons symbol symbols =>
      rw [PagingMarker.write, List.map_cons, WireFormat.writeFields, List.flatMap_cons]
      exact List.append_ne_nil_of_left_ne_nil (WireFormat.Field.write_ne_nil _) _

/-- The wire format is what the markers rely on. -/
def wireProtobuf : PagingProtobuf where
  serializeToString := PagingMarker.write
  parseFromString := PagingMarker.read
  fromDatetime := Timestamp.fromDatetime
  toDatetime := Timestamp.toDatetime
  parse_serialize _ fits := PagingMarker.read_write fits
  serialize_ne_nil _ some := PagingMarker.write_ne_nil some
  fromDatetime_fits _ inRange := Timestamp.fromDatetime_fits inRange
  toDatetime_fromDatetime _ inRange := Timestamp.toDatetime_fromDatetime inRange

end Zigopt.Api
