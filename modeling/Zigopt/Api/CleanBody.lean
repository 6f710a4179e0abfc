/-
Module: Zigopt.Api.CleanBody
Layer: Api
Purpose: What a request body that is accepted may contain. The hooks of the decoder see every object, every float and
  every constant, but a string only as a key or as the value of a member: the elements of arrays are not looked at.
Main exports: Clean, NoDuplicates, NoNulElements, accepted_clean_iff
-/
import Zigopt.Api.Request

namespace Zigopt.Api

/-- No NUL character. -/
def NoNul (text : String) : Prop := '\x00' ∉ text.toList

instance (text : String) : Decidable (NoNul text) := inferInstanceAs (Decidable (_ ∉ _))

mutual

/-- No string with a NUL character and no float that is not a number, at any depth. -/
def Clean : PyValue → Prop
  | .string text => NoNul text
  | .float value => value.isNumber = true
  | .list items => CleanItems items
  | .dict members => CleanMembers members
  | .none => True
  | .boolean _ => True
  | .integer _ => True

def CleanItems : List PyValue → Prop
  | [] => True
  | item :: rest => Clean item ∧ CleanItems rest

def CleanMembers : List (String × PyValue) → Prop
  | [] => True
  | (key, value) :: rest => NoNul key ∧ Clean value ∧ CleanMembers rest

end

mutual

/-- No object has a key twice, at any depth. -/
def NoDuplicates : JsonText → Prop
  | .array items => NoDuplicatesItems items
  | .object pairs => (pairs.map Prod.fst).Nodup ∧ NoDuplicatesPairs pairs
  | .null => True
  | .boolean _ => True
  | .integer _ => True
  | .float _ => True
  | .constant _ => True
  | .string _ => True

def NoDuplicatesItems : List JsonText → Prop
  | [] => True
  | item :: rest => NoDuplicates item ∧ NoDuplicatesItems rest

def NoDuplicatesPairs : List (String × JsonText) → Prop
  | [] => True
  | (_, item) :: rest => NoDuplicates item ∧ NoDuplicatesPairs rest

end

/-- A string that an array holds is without NUL. -/
def NulFreeElement : JsonText → Prop
  | .string text => NoNul text
  | _ => True

mutual

/-- No array, at any depth, has an element that is a string with a NUL character. -/
def NoNulElements : JsonText → Prop
  | .array items => NoNulElementsItems items
  | .object pairs => NoNulElementsPairs pairs
  | .null => True
  | .boolean _ => True
  | .integer _ => True
  | .float _ => True
  | .constant _ => True
  | .string _ => True

def NoNulElementsItems : List JsonText → Prop
  | [] => True
  | item :: rest => NulFreeElement item ∧ NoNulElements item ∧ NoNulElementsItems rest

def NoNulElementsPairs : List (String × JsonText) → Prop
  | [] => True
  | (_, item) :: rest => NoNulElements item ∧ NoNulElementsPairs rest

end

/-! ### The hooks -/

theorem validateApiInputString_eq_ok {text accepted : String} :
    validateApiInputString text = .ok accepted ↔ NoNul text ∧ text = accepted := by
  unfold validateApiInputString NoNul
  split
  next hasNul => exact iff_of_false (fun impossible => nomatch impossible) fun both => both.1 hasNul
  next noNul => simp [noNul]

/-- A value that is a string is without NUL. -/
def NulFreeString : PyValue → Prop
  | .string text => NoNul text
  | _ => True

theorem validateApiInput_ok {value accepted : PyValue} (valid : validateApiInput value = .ok accepted) :
    NulFreeString value ∧ value = accepted := by
  cases value with
  | string text =>
      obtain ⟨other, stringValid, rfl⟩ := Raising.map_eq_ok.mp valid
      obtain ⟨noNul, rfl⟩ := validateApiInputString_eq_ok.mp stringValid
      exact ⟨noNul, rfl⟩
  | _ => exact ⟨trivial, Except.ok.inj valid⟩

/-- The hook takes pairs with distinct keys, whose strings are without NUL, as they are. -/
theorem objectPairsHook_ok {orderedPairs outputDict members : List (String × PyValue)}
    (accepted : objectPairsHookRaiseOnDuplicates outputDict orderedPairs = .ok members) :
    members = outputDict ++ orderedPairs ∧ (orderedPairs.map Prod.fst).Nodup ∧
      (∀ key ∈ orderedPairs.map Prod.fst, key ∉ outputDict.map Prod.fst) ∧
      ∀ pair ∈ orderedPairs, NoNul pair.1 ∧ NulFreeString pair.2 := by
  induction orderedPairs generalizing outputDict with
  | nil =>
      obtain rfl := Except.ok.inj accepted
      exact ⟨(List.append_nil _).symm, List.nodup_nil, fun key isKey => (nomatch isKey), fun pair isPair => nomatch isPair⟩
  | cons pair rest inductionHypothesis =>
      obtain ⟨key, value⟩ := pair
      rw [objectPairsHookRaiseOnDuplicates, Raising.bind_eq_ok] at accepted
      obtain ⟨validKey, keyValid, accepted⟩ := accepted
      obtain ⟨keyNoNul, rfl⟩ := validateApiInputString_eq_ok.mp keyValid
      rw [Raising.bind_eq_ok] at accepted
      obtain ⟨validValue, valueValid, accepted⟩ := accepted
      obtain ⟨valueNoNul, rfl⟩ := validateApiInput_ok valueValid
      split at accepted
      next _ => cases accepted
      next isNew =>
        obtain ⟨isMembers, distinct, apart, noNul⟩ := inductionHypothesis accepted
        have keyApart : ∀ other ∈ rest.map Prod.fst, other ∉ outputDict.map Prod.fst ∧ other ≠ key := by
          intro other isOther
          have notThere := apart other isOther
          rw [List.map_append, List.mem_append, not_or] at notThere
          exact ⟨notThere.1, fun same => notThere.2 (List.mem_singleton.mpr same)⟩
        refine ⟨?_, ?_, ?_, ?_⟩
        · rw [isMembers, List.append_assoc]
          rfl
        · exact List.nodup_cons.mpr ⟨fun isRest => (keyApart key isRest).2 rfl, distinct⟩
        · exact List.forall_mem_cons.mpr ⟨isNew, fun other isOther => (keyApart other isOther).1⟩
        · exact List.forall_mem_cons.mpr ⟨⟨keyNoNul, valueNoNul⟩, noNul⟩

/-! ### The decoder -/

/-- A value is clean, but for the string that it may itself be. -/
def CleanInside (value : PyValue) : Prop :=
  NulFreeString value → Clean value

theorem clean_iff (value : PyValue) : Clean value ↔ NulFreeString value ∧ CleanInside value := by
  cases value with
  | string text => exact ⟨fun clean => ⟨clean, fun _ => clean⟩, fun both => both.1⟩
  | _ => exact ⟨fun clean => ⟨trivial, fun _ => clean⟩, fun both => both.2 trivial⟩

section Decoder

variable {decoder : JsonDecoder}

/-- What the decoder makes of a text: a string of a string, and clean inside exactly if no element has a NUL. -/
structure LoadedRight (text : JsonText) (value : PyValue) : Prop where
  element : NulFreeElement text ↔ NulFreeString value
  inside : CleanInside value ↔ NoNulElements text
  distinct : NoDuplicates text

/-- Neither a string nor anything with elements. -/
theorem LoadedRight.of_scalar {text : JsonText} {value : PyValue} (element : NulFreeElement text ↔ NulFreeString value)
    (clean : CleanInside value) (noElements : NoNulElements text) (distinct : NoDuplicates text) :
    LoadedRight text value :=
  ⟨element, iff_of_true clean noElements, distinct⟩

mutual

theorem load_right : (text : JsonText) → {value : PyValue} → load decoder text = .ok value → LoadedRight text value
  | .null, value, loaded => by
      obtain rfl := Except.ok.inj loaded
      exact .of_scalar Iff.rfl (fun _ => trivial) trivial trivial
  | .boolean flag, value, loaded => by
      obtain rfl := Except.ok.inj loaded
      exact .of_scalar Iff.rfl (fun _ => trivial) trivial trivial
  | .integer number, value, loaded => by
      obtain rfl := Except.ok.inj loaded
      exact .of_scalar Iff.rfl (fun _ => trivial) trivial trivial
  | .float numeral, value, loaded => by
      rw [load, parseFloat] at loaded
      split at loaded
      next isNumber =>
        obtain rfl := Except.ok.inj loaded
        exact .of_scalar Iff.rfl (fun _ => isNumber) trivial trivial
      next _ => cases loaded
  | .constant name, value, loaded => by
      rw [load, parseConstant] at loaded
      cases loaded
  | .string text, value, loaded => by
      obtain rfl := Except.ok.inj loaded
      exact .of_scalar Iff.rfl id trivial trivial
  | .array items, value, loaded => by
      rw [load] at loaded
      obtain ⟨values, itemsLoaded, isValue⟩ := Raising.bind_eq_ok.mp loaded
      obtain rfl := Raising.pure_eq_ok.mp isValue
      obtain ⟨clean, distinct⟩ := loadItems_right items itemsLoaded
      refine ⟨Iff.rfl, ?_, distinct⟩
      exact (imp_iff_right trivial).trans clean
  | .object pairs, value, loaded => by
      rw [load] at loaded
      obtain ⟨orderedPairs, pairsLoaded, hooked⟩ := Raising.bind_eq_ok.mp loaded
      obtain ⟨members, accepted, isValue⟩ := Raising.bind_eq_ok.mp hooked
      obtain rfl := Raising.pure_eq_ok.mp isValue
      obtain ⟨isMembers, keysDistinct, _, noNul⟩ := objectPairsHook_ok accepted
      rw [List.nil_append] at isMembers
      obtain ⟨sameKeys, distinct, clean⟩ := loadPairs_right pairs pairsLoaded
      rw [sameKeys] at keysDistinct
      refine ⟨Iff.rfl, ?_, keysDistinct, distinct⟩
      rw [isMembers]
      exact (imp_iff_right trivial).trans (clean noNul)

theorem loadItems_right : (items : List JsonText) → {values : List PyValue} → loadItems decoder items = .ok values →
    (CleanItems values ↔ NoNulElementsItems items) ∧ NoDuplicatesItems items
  | [], values, loaded => by
      obtain rfl := Except.ok.inj loaded
      exact ⟨Iff.rfl, trivial⟩
  | item :: rest, values, loaded => by
      rw [loadItems] at loaded
      obtain ⟨value, itemLoaded, loaded⟩ := Raising.bind_eq_ok.mp loaded
      obtain ⟨restValues, restLoaded, isValues⟩ := Raising.bind_eq_ok.mp loaded
      obtain rfl := Raising.pure_eq_ok.mp isValues
      have itemRight := load_right item itemLoaded
      obtain ⟨restClean, restDistinct⟩ := loadItems_right rest restLoaded
      refine ⟨?_, itemRight.distinct, restDistinct⟩
      rw [CleanItems, NoNulElementsItems, clean_iff, ← itemRight.element, itemRight.inside, restClean, and_assoc]

theorem loadPairs_right : (pairs : List (String × JsonText)) → {members : List (String × PyValue)} →
    loadPairs decoder pairs = .ok members →
    members.map Prod.fst = pairs.map Prod.fst ∧ NoDuplicatesPairs pairs ∧
      ((∀ pair ∈ members, NoNul pair.1 ∧ NulFreeString pair.2) → (CleanMembers members ↔ NoNulElementsPairs pairs))
  | [], members, loaded => by
      obtain rfl := Except.ok.inj loaded
      exact ⟨rfl, trivial, fun _ => Iff.rfl⟩
  | (key, item) :: rest, members, loaded => by
      rw [loadPairs] at loaded
      obtain ⟨value, itemLoaded, loaded⟩ := Raising.bind_eq_ok.mp loaded
      obtain ⟨restMembers, restLoaded, isMembers⟩ := Raising.bind_eq_ok.mp loaded
      obtain rfl := Raising.pure_eq_ok.mp isMembers
      have itemRight := load_right item itemLoaded
      obtain ⟨sameKeys, restDistinct, restClean⟩ := loadPairs_right rest restLoaded
      refine ⟨?_, ⟨itemRight.distinct, restDistinct⟩, ?_⟩
      · rw [List.map_cons, List.map_cons, sameKeys]
      · intro noNul
        obtain ⟨⟨keyNoNul, valueNoNul⟩, restNoNul⟩ := List.forall_mem_cons.mp noNul
        rw [CleanMembers, NoNulElementsPairs, clean_iff, and_iff_right keyNoNul, and_iff_right valueNoNul,
          itemRight.inside, restClean restNoNul]

end

end Decoder

/-- What is accepted has been loaded, or there was nothing. -/
theorem parseJson_cases {decoder : JsonDecoder} {request : Request} {members : List (String × PyValue)}
    (accepted : parseJson decoder request = .ok (some members)) :
    (∃ text, bodyText decoder request.data request.encoding = some text ∧ load decoder text = .ok (.dict members)) ∨
      (bodyText decoder request.data request.encoding = none ∧ members = []) := by
  unfold parseJson at accepted
  split at accepted
  next _ =>
    split at accepted
    next failure failed =>
      obtain ⟨other, empty, isMembers⟩ := Raising.map_eq_ok.mp accepted
      rw [onJsonLoadingFailed] at empty
      split at empty
      next noData =>
        right
        rw [← Option.some.inj isMembers, ← Except.ok.inj empty, noData]
        exact ⟨decoder.scan_empty _, rfl⟩
      next _ => cases empty
    next other loaded =>
      obtain rfl := Option.some.inj (Except.ok.inj accepted)
      left
      unfold asJson at loaded
      split at loaded
      next _ => cases loaded
      next text isText => exact ⟨text, isText, loaded⟩
    next _ => cases accepted
  next _ => cases accepted

/-- A body that is accepted is clean, and no object of its text has a key twice, exactly if no array in it has a string
with a NUL character as an element. -/
theorem accepted_clean_iff {decoder : JsonDecoder} {request : Request} {members : List (String × PyValue)}
    (accepted : parseJson decoder request = .ok (some members)) :
    (CleanMembers members ∧ ∀ text, bodyText decoder request.data request.encoding = some text → NoDuplicates text) ↔
      ∀ text, bodyText decoder request.data request.encoding = some text → NoNulElements text := by
  rcases parseJson_cases accepted with ⟨text, isText, loaded⟩ | ⟨noText, rfl⟩
  · obtain ⟨_, inside, distinct⟩ := load_right text loaded
    have onlyText : ∀ property : JsonText → Prop,
        (∀ other, bodyText decoder request.data request.encoding = some other → property other) ↔ property text := by
      intro property
      rw [isText]
      constructor
      · exact fun every => every text rfl
      · intro holds other isOther
        rw [← Option.some.inj isOther]
        exact holds
    rw [onlyText, onlyText, and_iff_left distinct, ← inside]
    exact (imp_iff_right trivial).symm
  · rw [noText]
    exact iff_of_true ⟨trivial, fun text impossible => nomatch impossible⟩ fun text impossible => nomatch impossible

/-! ### Two bodies -/

/-- Decodes ASCII, and scans one text. -/
def decoderOf (body : String) (text : JsonText) (isBody : body ≠ "") : JsonDecoder where
  decode _ data := some (String.ofList (data.map fun byte => Char.ofNat byte.toNat))
  scan other := if other = body then some text else none
  float _ := .nan
  scan_empty _ := if_neg isBody.symm

def asciiBytes (body : String) : List UInt8 := body.toList.map fun character => character.toNat.toUInt8

/-- A request with this body. -/
def post (body : String) : Request := { method := "POST", data := asciiBytes body }

def nameBody : String := "\x7b\"name\": \"a\"\x7d"

def nameDecoder : JsonDecoder := decoderOf nameBody (.object [("name", .string "a")]) (by decide)

/-- A body with one member is read, and has no key twice. -/
theorem accepted_clean_plain :
    CleanMembers [("name", .string "a")] ∧ ∀ text,
      bodyText nameDecoder (post nameBody).data (post nameBody).encoding = some text → NoDuplicates text := by
  have isText : bodyText nameDecoder (post nameBody).data (post nameBody).encoding =
      some (.object [("name", .string "a")]) := by
    rfl
  have accepted : parseJson nameDecoder (post nameBody) = .ok (some [("name", .string "a")]) := by
    rfl
  apply (accepted_clean_iff accepted).mpr
  intro text isOther
  obtain rfl := Option.some.inj (isText.symm.trans isOther)
  exact ⟨trivial, trivial⟩

def tagsBody : String := "\x7b\"tags\": [\"\\u0000\"]\x7d"

def tagsDecoder : JsonDecoder := decoderOf tagsBody (.object [("tags", .array [.string "\x00"])]) (by decide)

/-- An element of an array is not looked at. -/
theorem nul_accepted : ∃ members,
    parseJson tagsDecoder (post tagsBody) = .ok (some members) ∧ ¬CleanMembers members := by
  refine ⟨[("tags", .list [.string "\x00"])], rfl, ?_⟩
  rintro ⟨_, ⟨clean, _⟩, _⟩
  have noNul : NoNul "\x00" := clean
  exact absurd noNul (by decide)

end Zigopt.Api
