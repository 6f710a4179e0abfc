/-
Module: Zigopt.Lib.Base64
Layer: Lib
Purpose: Base64 over any alphabet. Three bytes are spelled by four letters, a rest of one or two bytes by two or three
  letters and the padding that fills the group up. The reader is the lenient one: it passes over what is no letter,
  ends at the padding that completes a group, and refuses a text that ends inside one.
Main exports: Base64.Alphabet, Base64.encode, Base64.decode, Base64.stripped, Base64.padded,
  Base64.decode_encode, Base64.padded_stripped
-/
import Mathlib.Algebra.GroupWithZero.Nat
import Mathlib.Data.List.Basic

namespace Base64

/-- There are sextets. With this they bring no proof of their own. -/
instance neZero_sextets : NeZero (64 : ℕ) := ⟨Nat.succ_ne_zero 63⟩

/-- The letters of the sextets. Several letters may be read as one sextet, and the padding is none of them. -/
structure Alphabet where
  letter : Fin 64 → Char
  value : Char → Option (Fin 64)
  value_letter : ∀ sextet, value (letter sextet) = some sextet
  value_pad : value '=' = none

namespace Alphabet

theorem letter_ne_pad (alphabet : Alphabet) (sextet : Fin 64) : alphabet.letter sextet ≠ '=' := by
  intro isPad
  have read := alphabet.value_letter sextet
  rw [isPad, alphabet.value_pad] at read
  contradiction

end Alphabet

/-! ### Writing -/

/-- The sextet of a number, its lowest six bits. -/
def sextet (number : ℕ) : Fin 64 := Fin.ofNat 64 number

/-- Three bytes make four letters; what is missing of the last three is padded. -/
def encode (alphabet : Alphabet) : List UInt8 → List Char
  | [] => []
  | [first] =>
      [alphabet.letter (sextet (first.toNat / 4)), alphabet.letter (sextet (first.toNat % 4 * 16)), '=', '=']
  | [first, second] =>
      [alphabet.letter (sextet (first.toNat / 4)),
        alphabet.letter (sextet (first.toNat % 4 * 16 + second.toNat / 16)),
        alphabet.letter (sextet (second.toNat % 16 * 4)), '=']
  | first :: second :: third :: rest =>
      alphabet.letter (sextet (first.toNat / 4)) ::
        alphabet.letter (sextet (first.toNat % 4 * 16 + second.toNat / 16)) ::
        alphabet.letter (sextet (second.toNat % 16 * 4 + third.toNat / 64)) ::
        alphabet.letter (sextet (third.toNat % 64)) :: encode alphabet rest

/-! ### Reading -/

inductive Failure where
  | oneLetter
  | padding
deriving DecidableEq, Repr

/-- How far the reader is inside a group, with the bits that no byte has taken yet. -/
inductive Group where
  | none
  | one (left : ℕ)
  | two (left : ℕ)
  | three (left : ℕ)
deriving DecidableEq, Repr

namespace Group

def letters : Group → ℕ
  | none => 0
  | one _ => 1
  | two _ => 2
  | three _ => 3

/-- What one more letter makes of the group, and the byte it completes. -/
def add (value : ℕ) : Group → Group × Option UInt8
  | none => (one value, Option.none)
  | one left => (two (value % 16), some (UInt8.ofNat (left * 4 + value / 16)))
  | two left => (three (value % 4), some (UInt8.ofNat (left * 16 + value / 4)))
  | three left => (none, some (UInt8.ofNat (left * 64 + value)))

/-- The end of the text. -/
def finish : Group → Except Failure (List UInt8)
  | none => .ok []
  | one _ => .error .oneLetter
  | two _ => .error .padding
  | three _ => .error .padding

end Group

/-- Reading on inside a group, after `pads` signs of padding in it. -/
def decodeFrom (alphabet : Alphabet) (group : Group) (pads : ℕ) : List Char → Except Failure (List UInt8)
  | [] => group.finish
  | character :: rest =>
      if character = '=' then
        if group.letters < 2 then decodeFrom alphabet group pads rest
        else if 4 ≤ group.letters + (pads + 1) then .ok []
        else decodeFrom alphabet group (pads + 1) rest
      else
        match alphabet.value character with
        | Option.none => decodeFrom alphabet group pads rest
        | some value => do
            let bytes ← decodeFrom alphabet (group.add value).1 0 rest
            return (group.add value).2.toList ++ bytes

/-- Reading from the left, with the position within a group of four letters. -/
def decode (alphabet : Alphabet) (text : List Char) : Except Failure (List UInt8) :=
  decodeFrom alphabet .none 0 text

/-! ### Padding -/

/-- The text without its padding. -/
def stripped (text : List Char) : List Char := text.filter (· ≠ '=')

/-- The text filled up to whole groups. -/
def padded (text : List Char) : List Char :=
  if text.length % 4 ≠ 0 then text ++ List.replicate (4 - text.length % 4) '=' else text

theorem padded_append_group (first second third fourth : Char) (text : List Char) :
    padded (first :: second :: third :: fourth :: text) = first :: second :: third :: fourth :: padded text := by
  have sameRest : (first :: second :: third :: fourth :: text).length % 4 = text.length % 4 := by
    simp only [List.length_cons]
    omega
  unfold padded
  rw [sameRest]
  by_cases whole : text.length % 4 ≠ 0
  · rw [if_pos whole, if_pos whole]
    rfl
  · rw [if_neg whole, if_neg whole]

/-! ### What was written is read -/

variable (alphabet : Alphabet)

@[simp]
theorem sextet_val (number : ℕ) : (sextet number : ℕ) = number % 64 := rfl

@[simp]
theorem stripped_letter (value : Fin 64) (text : List Char) :
    stripped (alphabet.letter value :: text) = alphabet.letter value :: stripped text := by
  simp [stripped, alphabet.letter_ne_pad value]

@[simp]
theorem stripped_nil : stripped [] = [] := rfl

@[simp]
theorem stripped_pad (text : List Char) : stripped ('=' :: text) = stripped text := by
  simp [stripped]

/-- Padding can be left off: the length of what remains tells how much of it there was. -/
theorem padded_stripped (bytes : List UInt8) :
    padded (stripped (encode alphabet bytes)) = encode alphabet bytes := by
  induction bytes using encode.induct with
  | case1 => rfl
  | case2 first =>
      simp only [encode, stripped_letter, stripped_pad, stripped_nil]
      rfl
  | case3 first second =>
      simp only [encode, stripped_letter, stripped_pad, stripped_nil]
      rfl
  | case4 first second third rest inductionHypothesis =>
      simp only [encode, stripped_letter, padded_append_group, inductionHypothesis]

theorem decodeFrom_letter (group : Group) (pads : ℕ) (value : Fin 64) (rest : List Char) :
    decodeFrom alphabet group pads (alphabet.letter value :: rest) = do
      let bytes ← decodeFrom alphabet (group.add value).1 0 rest
      return (group.add value).2.toList ++ bytes := by
  rw [decodeFrom, if_neg (alphabet.letter_ne_pad value), alphabet.value_letter]

theorem ofNat_eq {number : ℕ} {byte : UInt8} (same : number = byte.toNat) : UInt8.ofNat number = byte := by
  rw [same, UInt8.ofNat_toNat]

/-- Every byte string is read back from its text, in any alphabet. -/
theorem decode_encode (bytes : List UInt8) : decode alphabet (encode alphabet bytes) = .ok bytes := by
  induction bytes using encode.induct with
  | case1 => rfl
  | case2 first =>
      have bound := first.toNat_lt
      have firstByte : UInt8.ofNat (first.toNat / 4 % 64 * 4 + first.toNat % 4 * 16 % 64 / 16) = first :=
        ofNat_eq (by omega)
      simp only [decode, encode, decodeFrom_letter, Group.add, sextet_val, firstByte]
      rfl
  | case3 first second =>
      have firstBound := first.toNat_lt
      have secondBound := second.toNat_lt
      have firstByte : UInt8.ofNat
          (first.toNat / 4 % 64 * 4 + (first.toNat % 4 * 16 + second.toNat / 16) % 64 / 16) = first :=
        ofNat_eq (by omega)
      have secondByte : UInt8.ofNat
          ((first.toNat % 4 * 16 + second.toNat / 16) % 64 % 16 * 16 + second.toNat % 16 * 4 % 64 / 4) = second :=
        ofNat_eq (by omega)
      simp only [decode, encode, decodeFrom_letter, Group.add, sextet_val, firstByte, secondByte]
      rfl
  | case4 first second third rest inductionHypothesis =>
      have firstBound := first.toNat_lt
      have secondBound := second.toNat_lt
      have thirdBound := third.toNat_lt
      have firstByte : UInt8.ofNat
          (first.toNat / 4 % 64 * 4 + (first.toNat % 4 * 16 + second.toNat / 16) % 64 / 16) = first :=
        ofNat_eq (by omega)
      have secondByte : UInt8.ofNat
          ((first.toNat % 4 * 16 + second.toNat / 16) % 64 % 16 * 16 +
            (second.toNat % 16 * 4 + third.toNat / 64) % 64 / 4) = second :=
        ofNat_eq (by omega)
      have thirdByte : UInt8.ofNat
          ((second.toNat % 16 * 4 + third.toNat / 64) % 64 % 4 * 64 + third.toNat % 64 % 64) = third :=
        ofNat_eq (by omega)
      simp only [decode, encode, decodeFrom_letter, Group.add, sextet_val, firstByte, secondByte, thirdByte]
      rw [show decodeFrom alphabet .none 0 (encode alphabet rest) = .ok rest from inductionHypothesis]
      rfl

/-- A text is spelled without its padding and read back with it. -/
theorem decode_padded_stripped (bytes : List UInt8) :
    decode alphabet (padded (stripped (encode alphabet bytes))) = .ok bytes := by
  rw [padded_stripped, decode_encode]

/-- Bytes are spelled by letters only. -/
theorem stripped_encode_letters (bytes : List UInt8) :
    ∀ character ∈ stripped (encode alphabet bytes), ∃ value, character = alphabet.letter value := by
  induction bytes using encode.induct with
  | case1 => simp [encode, stripped]
  | case2 first => simp [encode, stripped]
  | case3 first second => simp [encode, stripped]
  | case4 first second third rest inductionHypothesis =>
      simp only [encode, stripped_letter, List.mem_cons]
      rintro character (rfl | rfl | rfl | rfl | inRest)
      · exact ⟨_, rfl⟩
      · exact ⟨_, rfl⟩
      · exact ⟨_, rfl⟩
      · exact ⟨_, rfl⟩
      · exact inductionHypothesis character inRest

theorem stripped_encode_ne_nil {bytes : List UInt8} (some : bytes ≠ []) :
    stripped (encode alphabet bytes) ≠ [] := by
  intro empty
  have read := decode_padded_stripped alphabet bytes
  rw [empty] at read
  cases read
  exact some rfl

end Base64
