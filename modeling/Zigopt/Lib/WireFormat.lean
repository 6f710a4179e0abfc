/-
Module: Zigopt.Lib.WireFormat
Layer: Lib
Purpose: The wire format of protobuf messages. A message is a sequence of fields, each a number with a payload: a
  varint, a word of four or eight bytes, or bytes of their own. Groups are left out.
Main exports: WireFormat.writeVarint, WireFormat.readVarint_write, WireFormat.Field, WireFormat.writeFields,
  WireFormat.readFields, WireFormat.readFields_write, WireFormat.readText_write
-/
import Mathlib.Algebra.Group.Nat.Defs
import Mathlib.Data.List.Basic

namespace WireFormat

abbrev Bytes := List UInt8

theorem toNat_ofNat_of_lt {number : ℕ} (small : number < 256) : (UInt8.ofNat number).toNat = number := by
  rw [UInt8.toNat_ofNat']
  exact Nat.mod_eq_of_lt small

/-! ### Varints -/

/-- Seven bits a byte, the lowest first; all bytes but the last have the highest bit. -/
def writeVarint (number : ℕ) : Bytes :=
  if number < 128 then [UInt8.ofNat number]
  else UInt8.ofNat (number % 128 + 128) :: writeVarint (number / 128)
termination_by number
decreasing_by omega

def readVarint : Bytes → Option (ℕ × Bytes)
  | [] => none
  | byte :: rest =>
      if byte.toNat < 128 then some (byte.toNat, rest)
      else (readVarint rest).map fun high => (byte.toNat - 128 + 128 * high.1, high.2)

/-- A number is read back, and what follows it is left. -/
theorem readVarint_write (number : ℕ) (rest : Bytes) :
    readVarint (writeVarint number ++ rest) = some (number, rest) := by
  induction number using Nat.strongRecOn with
  | ind number inductionHypothesis =>
      rw [writeVarint]
      by_cases small : number < 128
      · have byte : (UInt8.ofNat number).toNat = number := toNat_ofNat_of_lt (by omega)
        rw [if_pos small, List.singleton_append, readVarint, byte, if_pos small]
      · have byte : (UInt8.ofNat (number % 128 + 128)).toNat = number % 128 + 128 := toNat_ofNat_of_lt (by omega)
        rw [if_neg small, List.cons_append, readVarint, byte, if_neg (by omega),
          inductionHypothesis (number / 128) (by omega), Option.map_some]
        simp only [Option.some.injEq, Prod.mk.injEq, and_true]
        omega

theorem writeVarint_ne_nil (number : ℕ) : writeVarint number ≠ [] := by
  rw [writeVarint]
  split <;> exact List.cons_ne_nil _ _

/-! ### Words -/

/-- The lowest byte first. -/
def writeWord : ℕ → ℕ → Bytes
  | 0, _ => []
  | size + 1, number => UInt8.ofNat (number % 256) :: writeWord size (number / 256)

def readWord : ℕ → Bytes → Option (ℕ × Bytes)
  | 0, rest => some (0, rest)
  | _ + 1, [] => none
  | size + 1, byte :: rest => (readWord size rest).map fun high => (byte.toNat + 256 * high.1, high.2)

theorem readWord_write (size : ℕ) {number : ℕ} (small : number < 256 ^ size) (rest : Bytes) :
    readWord size (writeWord size number ++ rest) = some (number, rest) := by
  induction size generalizing number with
  | zero =>
      have isZero : number = 0 := by simpa using small
      rw [isZero]
      rfl
  | succ size inductionHypothesis =>
      have byte : (UInt8.ofNat (number % 256)).toNat = number % 256 := toNat_ofNat_of_lt (by omega)
      have smaller : number / 256 < 256 ^ size := by
        rw [Nat.pow_succ] at small
        exact Nat.div_lt_of_lt_mul (by rwa [Nat.mul_comm])
      rw [writeWord, List.cons_append, readWord, inductionHypothesis smaller, Option.map_some, byte]
      simp only [Option.some.injEq, Prod.mk.injEq, and_true]
      omega

/-! ### Bytes of their own -/

def writeBytes (bytes : Bytes) : Bytes := writeVarint bytes.length ++ bytes

def readBytes (input : Bytes) : Option (Bytes × Bytes) := do
  let (length, rest) ← readVarint input
  if length ≤ rest.length then some (rest.take length, rest.drop length) else none

theorem readBytes_write (bytes rest : Bytes) : readBytes (writeBytes bytes ++ rest) = some (bytes, rest) := by
  rw [writeBytes, List.append_assoc, readBytes, readVarint_write, Option.bind_eq_bind, Option.bind_some]
  dsimp only
  rw [if_pos (by rw [List.length_append]; omega), List.take_left, List.drop_left]

/-! ### Fields -/

inductive Payload where
  | varint (number : ℕ)
  | word64 (number : ℕ)
  | bytes (content : Bytes)
  | word32 (number : ℕ)
deriving DecidableEq, Repr

namespace Payload

def wireType : Payload → ℕ
  | varint _ => 0
  | word64 _ => 1
  | bytes _ => 2
  | word32 _ => 5

/-- The words fit into their bytes. -/
def Fits : Payload → Prop
  | varint _ => True
  | word64 number => number < 256 ^ 8
  | bytes _ => True
  | word32 number => number < 256 ^ 4

def write : Payload → Bytes
  | varint number => writeVarint number
  | word64 number => writeWord 8 number
  | bytes content => writeBytes content
  | word32 number => writeWord 4 number

def read (wireType : ℕ) (input : Bytes) : Option (Payload × Bytes) :=
  match wireType with
  | 0 => (readVarint input).map fun found => (varint found.1, found.2)
  | 1 => (readWord 8 input).map fun found => (word64 found.1, found.2)
  | 2 => (readBytes input).map fun found => (bytes found.1, found.2)
  | 5 => (readWord 4 input).map fun found => (word32 found.1, found.2)
  | _ => none

theorem wireType_lt (payload : Payload) : payload.wireType < 8 := by
  cases payload <;> simp [wireType]

theorem read_write {payload : Payload} (fits : payload.Fits) (rest : Bytes) :
    read payload.wireType (payload.write ++ rest) = some (payload, rest) := by
  cases payload with
  | varint number => simp only [read, wireType, write, readVarint_write, Option.map_some]
  | word64 number => simp only [read, wireType, write, readWord_write 8 fits, Option.map_some]
  | bytes content => simp only [read, wireType, write, readBytes_write, Option.map_some]
  | word32 number => simp only [read, wireType, write, readWord_write 4 fits, Option.map_some]

end Payload

/-- A field of the wire format, its number with its payload. -/
structure Field where
  number : ℕ
  payload : Payload
deriving DecidableEq, Repr

/-- The tag of a field, then its payload. -/
def Field.write (field : Field) : Bytes :=
  writeVarint (field.number * 8 + field.payload.wireType) ++ field.payload.write

/-- The tag names the field and the kind of its payload. -/
def readField (input : Bytes) : Option (Field × Bytes) := do
  let (tag, rest) ← readVarint input
  let (payload, rest) ← Payload.read (tag % 8) rest
  some (⟨tag / 8, payload⟩, rest)

theorem readField_write {field : Field} (fits : field.payload.Fits) (rest : Bytes) :
    readField (field.write ++ rest) = some (field, rest) := by
  have kind := field.payload.wireType_lt
  have isType : (field.number * 8 + field.payload.wireType) % 8 = field.payload.wireType := by omega
  have isNumber : (field.number * 8 + field.payload.wireType) / 8 = field.number := by omega
  rw [Field.write, List.append_assoc, readField, readVarint_write, Option.bind_eq_bind, Option.bind_some]
  dsimp only
  rw [isType, isNumber, Payload.read_write fits, Option.bind_eq_bind, Option.bind_some]

/-- A message is the fields one after the other. -/
def writeFields (fields : List Field) : Bytes := fields.flatMap Field.write

/-- Every field takes at least a byte of the fuel. -/
def readFieldsFrom : ℕ → Bytes → Option (List Field)
  | _, [] => some []
  | 0, _ :: _ => none
  | fuel + 1, byte :: bytes => do
      let (field, rest) ← readField (byte :: bytes)
      (readFieldsFrom fuel rest).map (field :: ·)

/-- The fields up to the end of the input. -/
def readFields (input : Bytes) : Option (List Field) := readFieldsFrom input.length input

theorem Field.write_ne_nil (field : Field) : field.write ≠ [] := by
  rw [Field.write]
  exact List.append_ne_nil_of_left_ne_nil (writeVarint_ne_nil _) _

theorem readFieldsFrom_write {fields : List Field} (fits : ∀ field ∈ fields, field.payload.Fits) {fuel : ℕ}
    (enough : (writeFields fields).length ≤ fuel) : readFieldsFrom fuel (writeFields fields) = some fields := by
  induction fields generalizing fuel with
  | nil => cases fuel <;> rfl
  | cons field fields inductionHypothesis =>
      rw [List.forall_mem_cons] at fits
      have first := readField_write fits.1 (writeFields fields)
      rw [writeFields, List.flatMap_cons] at enough ⊢
      rw [← writeFields] at enough ⊢
      have takesBytes := List.length_pos_iff.mpr field.write_ne_nil
      rw [List.length_append] at enough
      obtain ⟨byte, bytes, spelled⟩ := List.exists_cons_of_ne_nil
        (List.append_ne_nil_of_left_ne_nil field.write_ne_nil (writeFields fields))
      cases fuel with
      | zero => omega
      | succ fuel =>
          rw [spelled] at first ⊢
          rw [readFieldsFrom, first, Option.bind_eq_bind, Option.bind_some]
          dsimp only
          rw [inductionHypothesis fits.2 (by omega), Option.map_some]

/-- Fields with payloads that fit are read back. -/
theorem readFields_write {fields : List Field} (fits : ∀ field ∈ fields, field.payload.Fits) :
    readFields (writeFields fields) = some fields :=
  readFieldsFrom_write fits (Nat.le_refl _)

/-! ### Texts -/

def writeText (text : String) : Bytes := text.toByteArray.data.toList

def readText (bytes : Bytes) : Option String :=
  (ByteArray.mk bytes.toArray).utf8Decode?.map fun characters => String.ofList characters.toList

/-- Text is read back from its bytes. -/
theorem readText_write (text : String) : readText (writeText text) = some text := by
  rw [readText, writeText, Array.toArray_toList, ← String.utf8Encode_toList, List.utf8Decode?_utf8Encode, Option.map_some,
    List.toList_toArray, String.ofList_toList]

end WireFormat
