/-
Module: Zigopt.Lib.DottedText
Layer: Lib
Purpose: Texts that are glued together with dots and taken apart at their dots. Taking apart undoes gluing only as far
  as the parts have no dots of their own.
Main exports: joinDots, splitDots, joinDots_splitDots, splitDots_joinDots, splitDots_injective,
  splitDots_of_undotted, splitDots_joinDots_of_undotted, length_splitDots_of_dotted
-/
import Mathlib.Data.List.Basic

namespace DottedText

/-- `".".join(parts)`. -/
def joinDots (parts : List String) : String := ".".intercalate parts

/-- `text.split(".")`. -/
def splitDots (text : String) : List String := (text.toList.splitOn '.').map String.ofList

def IsUndotted (text : String) : Prop := '.' ∉ text.toList

instance (text : String) : Decidable (IsUndotted text) := inferInstanceAs (Decidable ('.' ∉ text.toList))

theorem splitDots_ne_nil (text : String) : splitDots text ≠ [] := by
  simp [splitDots, List.splitOn_ne_nil]

theorem toList_splitDots (text : String) : (splitDots text).map String.toList = text.toList.splitOn '.' := by
  simp [splitDots]

/-- A text is the join of its parts. -/
@[simp] theorem joinDots_splitDots (text : String) : joinDots (splitDots text) = text := by
  apply String.toList_injective
  rw [joinDots, String.toList_intercalate, toList_splitDots]
  exact List.intercalate_splitOn '.'

/-- The parts of a text determine it. -/
theorem splitDots_injective {first second : String} (same : splitDots first = splitDots second) : first = second := by
  rw [← joinDots_splitDots first, same, joinDots_splitDots]

theorem splitDots_append (first second : String) :
    splitDots (first ++ "." ++ second) = splitDots first ++ splitDots second := by
  have characters : (first ++ "." ++ second).toList = first.toList ++ '.' :: second.toList := by
    simp
  rw [splitDots, characters, List.splitOn_append_cons_self, List.map_append]
  rfl

theorem joinDots_cons_cons (first second : String) (rest : List String) :
    joinDots (first :: second :: rest) = first ++ "." ++ joinDots (second :: rest) := by
  apply String.toList_injective
  simp [joinDots, String.toList_intercalate, List.intercalate]

/-- Each part is taken apart at its own dots. -/
theorem splitDots_joinDots {parts : List String} (nonempty : parts ≠ []) :
    splitDots (joinDots parts) = parts.flatMap splitDots := by
  induction parts with
  | nil => exact absurd rfl nonempty
  | cons first rest inductionHypothesis =>
      cases rest with
      | nil => simp [joinDots]
      | cons second rest =>
          rw [joinDots_cons_cons, splitDots_append, inductionHypothesis (List.cons_ne_nil _ _)]
          simp only [List.flatMap_cons]

/-- A text without a dot is its only part. -/
theorem splitDots_of_undotted {text : String} (undotted : IsUndotted text) : splitDots text = [text] := by
  rw [splitDots, List.splitOn_eq_singleton undotted]
  simp

theorem not_mem_of_mem_splitOn {separator : Char} {characters part : List Char}
    (member : part ∈ characters.splitOn separator) : separator ∉ part := by
  induction characters generalizing part with
  | nil =>
      rw [List.splitOn_nil, List.mem_singleton] at member
      subst member
      exact List.not_mem_nil
  | cons first rest inductionHypothesis =>
      rw [List.splitOn_cons_eq_if_modifyHead] at member
      by_cases isSeparator : first = separator
      · rw [if_pos (beq_iff_eq.mpr isSeparator), List.mem_cons] at member
        cases member with
        | inl isFirst =>
            subst isFirst
            exact List.not_mem_nil
        | inr later => exact inductionHypothesis later
      · rw [if_neg (by simpa using isSeparator)] at member
        cases parts : rest.splitOn separator with
        | nil => exact absurd parts (List.splitOn_ne_nil _ _)
        | cons head others =>
            rw [parts, List.modifyHead_cons, List.mem_cons] at member
            cases member with
            | inl isFirst =>
                have notInHead := inductionHypothesis (parts ▸ List.mem_cons_self)
                subst isFirst
                rw [List.mem_cons, not_or]
                exact ⟨fun same => isSeparator same.symm, notInHead⟩
            | inr later => exact inductionHypothesis (parts ▸ List.mem_cons_of_mem _ later)

theorem undotted_of_mem_splitDots {text part : String} (member : part ∈ splitDots text) : IsUndotted part := by
  obtain ⟨characters, isPart, rfl⟩ := List.mem_map.mp member
  simpa [IsUndotted] using not_mem_of_mem_splitOn isPart

/-- Parts without dots survive being joined. -/
theorem splitDots_joinDots_of_undotted {parts : List String} (nonempty : parts ≠ [])
    (undotted : ∀ part ∈ parts, IsUndotted part) : splitDots (joinDots parts) = parts := by
  rw [splitDots_joinDots nonempty, List.flatMap_congr fun part member => splitDots_of_undotted (undotted part member)]
  simp

theorem splitDots_of_dotted {text : String} (dotted : ¬IsUndotted text) :
    ∃ first second, splitDots text = splitDots first ++ splitDots second := by
  rw [IsUndotted, not_not] at dotted
  obtain ⟨before, after, characters⟩ := List.append_of_mem dotted
  refine ⟨String.ofList before, String.ofList after, ?_⟩
  rw [← splitDots_append]
  congr 1
  apply String.toList_injective
  simp [characters]

/-- A dot separates at least two parts. -/
theorem length_splitDots_of_dotted {text : String} (dotted : ¬IsUndotted text) : 2 ≤ (splitDots text).length := by
  obtain ⟨first, second, apart⟩ := splitDots_of_dotted dotted
  have firstNonempty := List.length_pos_iff.mpr (splitDots_ne_nil first)
  have secondNonempty := List.length_pos_iff.mpr (splitDots_ne_nil second)
  rw [apart, List.length_append]
  omega

end DottedText
