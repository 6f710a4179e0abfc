/-
Module: Zigopt.Api.LoggedAlike
Layer: Api
Purpose: What is logged of two requests that differ in their secrets only. The parameters are logged alike; the headers
  are logged alike exactly if the two tokens do not differ, whose names are not spelled as the framework delivers them.
Main exports: Alike, AlikeRequests, sanitized_iff
-/
import Zigopt.Api.Request

namespace Zigopt.Api

/-! ### Parameters -/

mutual

/-- Equal but for the values of sensitive parameters, at any depth. -/
inductive Alike : PyValue → PyValue → Prop
  | same (value : PyValue) : Alike value value
  | list {first second : List PyValue} (items : AlikeItems first second) : Alike (.list first) (.list second)
  | dict {first second : List (String × PyValue)} (members : AlikeMembers first second) :
      Alike (.dict first) (.dict second)

inductive AlikeItems : List PyValue → List PyValue → Prop
  | nil : AlikeItems [] []
  | cons {first second : PyValue} {firstRest secondRest : List PyValue} (item : Alike first second)
      (rest : AlikeItems firstRest secondRest) : AlikeItems (first :: firstRest) (second :: secondRest)

inductive AlikeMembers : List (String × PyValue) → List (String × PyValue) → Prop
  | nil : AlikeMembers [] []
  | sensitive {key : String} (isSensitive : key ∈ sensitiveParams) (first second : PyValue)
      {firstRest secondRest : List (String × PyValue)} (rest : AlikeMembers firstRest secondRest) :
      AlikeMembers ((key, first) :: firstRest) ((key, second) :: secondRest)
  | cons (key : String) {first second : PyValue} {firstRest secondRest : List (String × PyValue)}
      (member : Alike first second) (rest : AlikeMembers firstRest secondRest) :
      AlikeMembers ((key, first) :: firstRest) ((key, second) :: secondRest)

end

mutual

theorem Alike.sanitize_eq : {first second : PyValue} → Alike first second → sanitize first = sanitize second
  | _, _, .same _ => rfl
  | _, _, .list items => congrArg PyValue.list items.sanitize_eq
  | _, _, .dict members => congrArg PyValue.dict members.sanitize_eq

theorem AlikeItems.sanitize_eq : {first second : List PyValue} → AlikeItems first second →
    sanitizeItems first = sanitizeItems second
  | _, _, .nil => rfl
  | _, _, .cons item rest => by
      rw [sanitizeItems, sanitizeItems, item.sanitize_eq, rest.sanitize_eq]

theorem AlikeMembers.sanitize_eq : {first second : List (String × PyValue)} → AlikeMembers first second →
    sanitizeMembers first = sanitizeMembers second
  | _, _, .nil => rfl
  | _, _, .sensitive isSensitive _ _ rest => by
      rw [sanitizeMembers, sanitizeMembers, rest.sanitize_eq, if_neg (not_not_intro isSensitive),
        if_neg (not_not_intro isSensitive)]
  | _, _, .cons key member rest => by
      rw [sanitizeMembers, sanitizeMembers, member.sanitize_eq, rest.sanitize_eq]

end

/-- Equal, but for the values of sensitive parameters where there are parameters. -/
inductive AlikeParams : Except RequestFailure (Option (List (String × PyValue))) →
    Except RequestFailure (Option (List (String × PyValue))) → Prop
  | same (outcome : Except RequestFailure (Option (List (String × PyValue)))) : AlikeParams outcome outcome
  | members {first second : List (String × PyValue)} (members : AlikeMembers first second) :
      AlikeParams (.ok (some first)) (.ok (some second))

theorem AlikeParams.sanitize_eq {first second : Except RequestFailure (Option (List (String × PyValue)))}
    (alike : AlikeParams first second) :
    (first.map fun members => members.map sanitizeMembers) = second.map fun members => members.map sanitizeMembers := by
  cases alike with
  | same => rfl
  | members members => rw [Except.map, Except.map, Option.map_some, Option.map_some, members.sanitize_eq]

/-! ### Headers -/

/-- One of the listed names, without regard to case. -/
def IsSensitiveHeader (name : String) : Prop :=
  ∃ listed ∈ sensitiveHeaders, name.toList.map Char.toLower = listed.toList.map Char.toLower

/-- Equal, but for the value of a sensitive header where it has one. -/
structure AlikeHeaders (first second : String × String) : Prop where
  name : first.1 = second.1
  value : first.2 = second.2 ∨ IsSensitiveHeader first.1 ∧ first.2 ≠ "" ∧ second.2 ≠ ""

def capitals : List Char := "ABCDEFGHIJKLMNOPQRSTUVWXYZ".toList

theorem ofNat_mem_capitals : ∀ code : Fin 91, 65 ≤ code.val → Char.ofNat code.val ∈ capitals := by
  decide +kernel

theorem toLower_eq_or_mem (character : Char) : character.toLower = character ∨ character ∈ capitals := by
  unfold Char.toLower
  split
  next isCapital =>
    right
    have low : 65 ≤ character.toNat := isCapital.1
    have high : character.toNat < 91 := Nat.lt_succ_of_le isCapital.2
    rw [← Char.ofNat_toNat character]
    exact ofNat_mem_capitals ⟨character.toNat, high⟩ low
  next _ => exact Or.inl rfl

theorem capital_toLower : ∀ character ∈ capitals,
    character.toLower.toLower = character.toLower ∧ character.toLower.toUpper = character.toUpper ∧
      character.toLower.isAlpha = character.isAlpha ∧ character ≠ '_' ∧ character.toLower ≠ '_' := by
  have checked : (capitals.all fun character => decide (character.toLower.toLower = character.toLower ∧
      character.toLower.toUpper = character.toUpper ∧ character.toLower.isAlpha = character.isAlpha ∧
        character ≠ '_' ∧ character.toLower ≠ '_')) = true := by
    decide +kernel
  intro character isCapital
  exact of_decide_eq_true (List.all_eq_true.mp checked character isCapital)

def hyphenated (character : Char) : Char := if character = '_' then '-' else character

theorem hyphenated_toLower (character : Char) : hyphenated character.toLower = (hyphenated character).toLower := by
  rcases toLower_eq_or_mem character with same | isCapital
  · rw [same, hyphenated]
    split
    · rfl
    · exact same.symm
  · obtain ⟨_, _, _, notUnderscore, notUnderscoreLower⟩ := capital_toLower character isCapital
    rw [hyphenated, hyphenated, if_neg notUnderscore, if_neg notUnderscoreLower]

/-- A title does not depend on the case of the letters. -/
theorem titleFrom_toLower (inWord : Bool) (characters : List Char) :
    titleFrom inWord (characters.map Char.toLower) = titleFrom inWord characters := by
  induction characters generalizing inWord with
  | nil => rfl
  | cons character rest inductionHypothesis =>
      rw [List.map_cons, titleFrom, titleFrom, inductionHypothesis]
      rcases toLower_eq_or_mem character with same | isCapital
      · simp only [same]
      · obtain ⟨sameLower, sameUpper, sameAlpha, _⟩ := capital_toLower character isCapital
        rw [sameLower, sameUpper, sameAlpha]

theorem deliveredName_congr {first second : String}
    (same : first.toList.map Char.toLower = second.toList.map Char.toLower) :
    deliveredName first = deliveredName second := by
  have commutes : ∀ name : String, deliveredName name =
      String.ofList (titleFrom false ((name.toList.map Char.toLower).map hyphenated)) := by
    intro name
    have moved : (name.toList.map Char.toLower).map hyphenated = (name.toList.map hyphenated).map Char.toLower := by
      rw [List.map_map, List.map_map]
      exact List.map_congr_left fun character _ => hyphenated_toLower character
    rw [moved, titleFrom_toLower]
    rfl
  rw [commutes, commutes, same]

/-- The names that the framework delivers for the listed ones. -/
def tokenNames : List String := ["X-Sigopt-Client-Token", "X-Sigopt-User-Token"]

theorem listed_cases : ∀ listed ∈ sensitiveHeaders,
    deliveredName listed ∈ tokenNames ∧ deliveredName listed ∉ sensitiveHeaders ∨
      deliveredName listed ∉ tokenNames ∧ deliveredName listed ∈ sensitiveHeaders := by
  decide +kernel

theorem sanitizeValue_iff {first second : String × String} (alike : AlikeHeaders first second) :
    (deliveredName first.1, sanitizeValue (deliveredName first.1) first.2) =
        (deliveredName second.1, sanitizeValue (deliveredName second.1) second.2) ↔
      (deliveredName first.1 ∈ tokenNames → first.2 = second.2) := by
  obtain ⟨sameName, sameValue | ⟨⟨listed, isListed, sameLower⟩, firstSome, secondSome⟩⟩ := alike
  · rw [sameName, sameValue]
    exact iff_of_true rfl fun _ => rfl
  · rw [← sameName, Prod.mk.injEq, and_iff_right rfl, deliveredName_congr sameLower]
    rcases listed_cases listed isListed with ⟨isToken, unlisted⟩ | ⟨notToken, scrubbed⟩
    · rw [sanitizeValue, if_neg unlisted, sanitizeValue, if_neg unlisted]
      exact (imp_iff_right isToken).symm
    · rw [sanitizeValue, if_pos scrubbed, if_neg firstSome, sanitizeValue, if_pos scrubbed, if_neg secondSome]
      exact iff_of_true rfl fun isToken => absurd isToken notToken

theorem sanitizedHeaders_iff {first second : List (String × String)} (alike : List.Forall₂ AlikeHeaders first second) :
    first.map (fun header => (deliveredName header.1, sanitizeValue (deliveredName header.1) header.2)) =
        second.map (fun header => (deliveredName header.1, sanitizeValue (deliveredName header.1) header.2)) ↔
      ∀ pair ∈ first.zip second, deliveredName pair.1.1 ∈ tokenNames → pair.1.2 = pair.2.2 := by
  induction alike with
  | nil => exact iff_of_true rfl fun pair isPair => nomatch isPair
  | cons header rest inductionHypothesis =>
      rw [List.map_cons, List.map_cons, List.cons.injEq, inductionHypothesis, sanitizeValue_iff header,
        List.zip_cons_cons, List.forall_mem_cons]

/-! ### Requests -/

/-- Two requests that differ in their secrets only. -/
structure AlikeRequests (decoder : JsonDecoder) (first second : Request) : Prop where
  params : AlikeParams (params decoder first) (params decoder second)
  headers : List.Forall₂ AlikeHeaders first.headers second.headers

/-- A decoder that is not asked for anything. -/
def noDecoder : JsonDecoder where
  decode _ _ := none
  scan _ := none
  float _ := .nan
  scan_empty _ := rfl

/-- A query with this password and this header. -/
def query (password name value : String) : Request :=
  { method := "GET", args := [("password", password)], headers := [(name, value)] }

theorem query_alike {name first second : String} (isSensitive : IsSensitiveHeader name) (firstSome : first ≠ "")
    (secondSome : second ≠ "") : AlikeRequests noDecoder (query "a" name first) (query "b" name second) where
  params := .members (.sensitive (by decide) _ _ .nil)
  headers := .cons ⟨rfl, Or.inr ⟨isSensitive, firstSome, secondSome⟩⟩ .nil

end Zigopt.Api
