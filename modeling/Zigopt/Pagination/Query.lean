/-
Module: Zigopt.Pagination.Query
Layer: Pagination
Purpose: `QueryPager` of pagination/query.py against the in-memory pager. The bounds of a page are row
  comparisons in the WHERE clause, and there a NULL makes the comparison unknown, which drops the row;
  the in-memory pager reads the same NULL as infinity and keeps the row. Texts are compared by the
  collation of the database, and by code points in memory.
Main exports: ColumnType, Table, sqlBefore, sqlLess, getPageResults, QueryPager.fetchPage,
  Deterministic, queryKey, orderedBefore_eq, sqlLess_of_noNull
-/
import Zigopt.Lib.Raising
import Zigopt.Lib.Sql
import Zigopt.Pagination.PagerTraversal

namespace Zigopt.Pagination

open Sql (Collation)

/-! ### Tables -/

/-- The types of the sort columns. -/
inductive ColumnType where
  | bigint
  | double
  | text
  | boolean
  | timestamp
deriving DecidableEq, Repr

/-- A column stores values of its type and NULL. -/
def ColumnType.Holds : ColumnType → FieldValue → Prop
  | _, .null => True
  | .bigint, .int value => InInt64 value
  | .double, .float (.finite _) => True
  | .text, .str _ => True
  | .boolean, .bool _ => True
  | .timestamp, .datetime _ => True
  | _, _ => False

/-- The database compares a column with a bound of its own type, and any number with any number. A
    string that spells a value of another type, which Postgres would convert, is counted as foreign. -/
def ColumnType.compares : ColumnType → FieldValue → Bool
  | _, .null => true
  | .bigint, .int _ => true
  | .bigint, .float _ => true
  | .double, .int _ => true
  | .double, .float _ => true
  | .text, .str _ => true
  | .boolean, .bool _ => true
  | .timestamp, .datetime _ => true
  | _, _ => false

/-- The rows of a query with its sort columns, the last of which is the unique id. Doubles are finite. -/
structure Table (α : Type) where
  columns : List ColumnType
  rows : List α
  Field : α → Key
  typed : ∀ row ∈ rows, List.Forall₂ ColumnType.Holds columns (Field row)
  hasId : ∀ row ∈ rows, ∃ id, (Field row).getLast? = some (.int id)
  uniqueId : rows.Pairwise fun first second => (Field first).getLast? ≠ (Field second).getLast?

/-! ### The query -/

/-- The order of two values that are not NULL: texts by the collation of the database, others by size. -/
def sqlBefore (collation : Collation) (value other : FieldValue) : Bool :=
  match value.sanitize, other.sanitize with
  | .str first, .str second => collation first second
  | first, second => first < second

/-- Row comparison in SQL: from left to right up to the first pair that differs or has a NULL in it,
    and unknown in the latter case. -/
def sqlLess (collation : Collation) : Key → Key → Option Bool
  | value :: values, other :: others =>
      if value = .null ∨ other = .null then none
      else if value.sanitize = other.sanitize then sqlLess collation values others
      else some (sqlBefore collation value other)
  | _, _ => some false

/-- `marker_to_rhs`. -/
def markerToRhs (columns : List ColumnType) (marker : PagingMarker) : Except PagerError Key :=
  if columns.length ≠ marker.symbols.length then
    .error (.badParam "Invalid paging marker")
  else
    .ok (getFieldValuesFromMarker marker)

/-- The database's check of a bound against the columns, when the query runs. -/
def boundFits (columns : List ColumnType) (bound : Option Key) : Bool :=
  match bound with
  | none => true
  | some values => (columns.zip values).all fun pair => pair.1.compares pair.2

/-- A row passes a WHERE clause if the clause is true of it, and not if it is unknown. -/
def passes (collation : Collation) (before after : Option Key) (fields : Key) : Bool :=
  (match before with
    | none => true
    | some bound => sqlLess collation fields bound = some true) &&
  (match after with
    | none => true
    | some bound => sqlLess collation bound fields = some true)

/-- ORDER BY over the sort columns: the first column in which the rows differ decides, with the NULLs
    on the side asked for. -/
def orderedBefore (collation : Collation) (descending nullsFirst : Bool) : Key → Key → Bool
  | value :: values, other :: others =>
      if value = .null ∧ other = .null ∨
          value ≠ .null ∧ other ≠ .null ∧ value.sanitize = other.sanitize then
        orderedBefore collation descending nullsFirst values others
      else if value = .null then nullsFirst
      else if other = .null then !nullsFirst
      else if descending then sqlBefore collation other value
      else sqlBefore collation value other
  | _, _ => true

variable {α : Type}

/-- The rows the database selects, from the largest key down whatever the direction of the search. -/
def selectRows (collation : Collation) (table : Table α) (limit : Option Nat) (before after : Option Key)
    (fromBefore nullsDescendant : Bool) : List α :=
  let nullsFirst := fromBefore ^^ nullsDescendant
  let filtered := table.rows.filter fun row => passes collation before after (table.Field row)
  let ordered := filtered.insertionSort fun first second =>
    orderedBefore collation fromBefore nullsFirst (table.Field first) (table.Field second)
  let results := match limit with
    | none => ordered
    | some limit => ordered.take limit
  if fromBefore then results else results.reverse

/-- `get_page_results`. -/
def getPageResults (collation : Collation) (table : Table α) (limit : Option Nat)
    (before after : Option PagingMarker) (ascending nullsDescendant : Bool) : Except PagerError (List α) := do
  let beforeBound ← before.mapM (markerToRhs table.columns)
  let afterBound ← after.mapM (markerToRhs table.columns)
  if boundFits table.columns beforeBound ∧ boundFits table.columns afterBound then
    .ok (selectRows collation table limit beforeBound afterBound (startFromBefore ascending before after)
      nullsDescendant)
  else
    .error .databaseError

/-- `fetch_page`: the pager over the query. -/
def QueryPager.fetchPage (collation : Collation) (table : Table α) (paging : PagingRequest)
    (ascending nullsDescendant : Bool) : Except PagerError (Page α) :=
  (Pager.fetchPage fun limit before after =>
      getPageResults collation table limit before after ascending nullsDescendant).fetch
    table.Field paging ascending

/-- The in-memory pager over the same rows. -/
def Table.listPage (table : Table α) (paging : PagingRequest) (ascending : Bool) :
    Except PagerError (Page α) :=
  (Pager.itemList table.rows).fetch table.Field paging ascending

/-! ### Comparisons with and without NULL -/

theorem ColumnType.compares_of_holds {column : ColumnType} {value : FieldValue}
    (holds : column.Holds value) : column.compares value = true := by
  rcases value with _ | _ | (_ | _ | _) | _ | _ | _ <;> cases column <;>
    first
    | rfl
    | exact False.elim holds

theorem storable_of_holds {column : ColumnType} {value : FieldValue} (holds : column.Holds value) :
    Storable value := by
  rcases value with _ | _ | (_ | _ | _) | _ | _ | _ <;> cases column <;> trivial

/-- The three kinds of values that compare among each other. -/
def SortValue.kind : SortValue → Nat
  | .number _ => 0
  | .str _ => 1
  | .datetime _ => 2

/-- Which columns can be compared with each other. -/
def ColumnType.kind : ColumnType → Nat
  | .bigint => 0
  | .double => 0
  | .boolean => 0
  | .text => 1
  | .timestamp => 2

theorem SortValue.lt?_isSome_iff (first second : SortValue) :
    (first.lt? second).isSome = true ↔ first.kind = second.kind := by
  cases first <;> cases second <;> simp [SortValue.lt?, SortValue.kind]

theorem ColumnType.kind_of_compares {column : ColumnType} {value : FieldValue}
    (fits : column.compares value = true) (notNull : value ≠ .null) :
    value.sanitize.kind = column.kind := by
  rcases value with _ | _ | (_ | _ | _) | _ | _ | _ <;> cases column <;>
    first
    | rfl
    | contradiction

/-- Values without NULL of the same columns are values that Python compares. -/
theorem comparable_of_noNull {columns : List ColumnType} {first second : Key}
    (fits : List.Forall₂ (fun column value => column.compares value = true) columns first)
    (fitsSecond : List.Forall₂ (fun column value => column.compares value = true) columns second)
    (noNull : .null ∉ first) (noNullSecond : .null ∉ second) :
    Comparable (sanitizeNones first) (sanitizeNones second) := by
  induction fits generalizing second with
  | nil =>
      cases fitsSecond
      exact Comparable.refl _
  | cons fitsHead fitsTail inductionHypothesis =>
      cases fitsSecond with
      | cons fitsOther fitsRest =>
          rw [List.mem_cons, not_or] at noNull noNullSecond
          have sameKind := (ColumnType.kind_of_compares fitsHead (Ne.symm noNull.1)).trans
            (ColumnType.kind_of_compares fitsOther (Ne.symm noNullSecond.1)).symm
          unfold Comparable
          simp only [sanitizeNones, List.map_cons, tupleLt]
          split
          · exact inductionHypothesis fitsRest noNull.2 noNullSecond.2
          · exact (SortValue.lt?_isSome_iff _ _).mpr sameKind

/-! ### The order of the query

A deterministic collation, with which two texts are the same only if they are equal, is a linear order, and
then so is the order of the rows, in which NULL is the largest value.
-/

/-- Of two different texts exactly one comes before the other. -/
class Deterministic (collation : Collation) : Prop
    extends IsStrictTotalOrder String fun first second => collation first second = true

/-- A text in the order of a collation. -/
structure CollatedText (collation : Collation) where
  text : String
deriving DecidableEq

/-- A value that is not NULL, in the order of the database. -/
structure CollatedValue (collation : Collation) where
  value : SortValue

section QueryOrder

variable {collation : Collation}

/-- Numbers, texts and datetimes are ordered among themselves. -/
def CollatedValue.rank (collated : CollatedValue collation) : Number ⊕ₗ (CollatedText collation ⊕ₗ Int) :=
  match collated.value with
  | .number value => Sum.inlₗ value
  | .str value => Sum.inrₗ (Sum.inlₗ ⟨value⟩)
  | .datetime microseconds => Sum.inrₗ (Sum.inrₗ microseconds)

def queryValue (collation : Collation) (value : FieldValue) : WithTop (CollatedValue collation) :=
  if value = .null then ⊤ else (⟨value.sanitize⟩ : CollatedValue collation)

/-- The key by which the database sorts. -/
def queryKey (collation : Collation) (key : Key) : List (WithTop (CollatedValue collation)) :=
  key.map (queryValue collation)

theorem CollatedValue.rank_injective : Function.Injective (@CollatedValue.rank collation) := by
  rintro ⟨first⟩ ⟨second⟩ same
  cases first <;> cases second <;> simp_all [CollatedValue.rank, Sum.inlₗ, Sum.inrₗ]

theorem queryValue_of_ne {value : FieldValue} (notNull : value ≠ .null) :
    queryValue collation value = (⟨value.sanitize⟩ : CollatedValue collation) := if_neg notNull

/-- Two values tie if both are NULL or both have the same value. -/
theorem queryValue_eq_iff {value other : FieldValue} : queryValue collation value = queryValue collation other ↔
    value = .null ∧ other = .null ∨ value ≠ .null ∧ other ≠ .null ∧ value.sanitize = other.sanitize := by
  by_cases isNull : value = .null <;> by_cases otherNull : other = .null <;>
    simp [queryValue, isNull, otherNull]

theorem queryValue_eq_iff_of_ne {value other : FieldValue} (notNull : value ≠ .null) (otherNotNull : other ≠ .null) :
    queryValue collation value = queryValue collation other ↔ value.sanitize = other.sanitize := by
  rw [queryValue_eq_iff]
  simp [notNull, otherNotNull]

def CollatedText.before (first second : CollatedText collation) : Prop :=
  collation first.text second.text = true

instance : DecidableRel (@CollatedText.before collation) :=
  fun first second => inferInstanceAs (Decidable (collation first.text second.text = true))

variable [Deterministic collation]

instance : IsStrictTotalOrder (CollatedText collation) CollatedText.before where
  trichotomous := by
    intro first second notBefore notAfter
    have same := Std.Trichotomous.trichotomous (r := fun one two => collation one two = true)
      first.text second.text notBefore notAfter
    cases first
    cases second
    exact congrArg CollatedText.mk same
  irrefl := fun text => irrefl_of (fun one two => collation one two = true) text.text
  trans := fun first second third one two =>
    trans_of (fun one two => collation one two = true) (a := first.text) (b := second.text) (c := third.text) one two

instance : LinearOrder (CollatedText collation) := linearOrderOfSTO CollatedText.before

instance : LinearOrder (CollatedValue collation) := LinearOrder.lift' CollatedValue.rank CollatedValue.rank_injective

theorem collated_lt_iff {value other : FieldValue} :
    (⟨value.sanitize⟩ : CollatedValue collation) < ⟨other.sanitize⟩ ↔ sqlBefore collation value other = true := by
  have byRank (first second : SortValue) : first < second ↔ first.rank < second.rank := Iff.rfl
  have byCollatedRank (first second : CollatedValue collation) : first < second ↔ first.rank < second.rank := Iff.rfl
  have ofTexts (first second : String) :
      (⟨first⟩ : CollatedText collation) < ⟨second⟩ ↔ collation first second = true := Iff.rfl
  unfold sqlBefore
  cases value.sanitize <;> cases other.sanitize <;>
    simp [byCollatedRank, CollatedValue.rank, byRank, SortValue.rank, Sum.inlₗ, Sum.inrₗ, ofTexts]

theorem queryValue_lt_iff {value other : FieldValue} (notNull : value ≠ .null) (otherNotNull : other ≠ .null) :
    queryValue collation value < queryValue collation other ↔ sqlBefore collation value other = true := by
  rw [queryValue_of_ne notNull, queryValue_of_ne otherNotNull, WithTop.coe_lt_coe, collated_lt_iff]

/-- ORDER BY with its default place for NULLs. -/
theorem orderedBefore_eq (descending : Bool) {first second : Key} (sameLength : first.length = second.length) :
    orderedBefore collation descending descending first second =
      if descending then decide (queryKey collation second ≤ queryKey collation first)
      else decide (queryKey collation first ≤ queryKey collation second) := by
  induction first generalizing second with
  | nil =>
      cases second with
      | nil => simp [orderedBefore, queryKey]
      | cons other others => cases sameLength
  | cons value values inductionHypothesis =>
      cases second with
      | nil => cases sameLength
      | cons other others =>
          have tails := inductionHypothesis (Nat.succ.inj sameLength)
          simp only [orderedBefore, queryKey, List.map_cons]
          by_cases tied : queryValue collation value = queryValue collation other
          · rw [if_pos (queryValue_eq_iff.mp tied), tails, tied]
            simp [queryKey, ← not_lt]
          · have smaller : (queryValue collation value :: values.map (queryValue collation) ≤
                queryValue collation other :: others.map (queryValue collation)) ↔
                  queryValue collation value < queryValue collation other := by
              rw [← not_lt, List.cons_lt_cons_iff]
              simp [Ne.symm tied, lt_iff_le_and_ne, tied]
            have larger : (queryValue collation other :: others.map (queryValue collation) ≤
                queryValue collation value :: values.map (queryValue collation)) ↔
                  queryValue collation other < queryValue collation value := by
              rw [← not_lt, List.cons_lt_cons_iff]
              simp [Ne.symm tied, lt_iff_le_and_ne, tied]
            rw [if_neg (mt queryValue_eq_iff.mpr tied)]
            simp only [smaller, larger]
            by_cases isNull : value = .null
            · have otherNotNull : other ≠ .null := fun otherNull => tied (by rw [isNull, otherNull])
              rw [if_pos isNull, isNull, queryValue_of_ne otherNotNull]
              cases descending <;> simp [queryValue]
            · rw [if_neg isNull]
              by_cases otherNull : other = .null
              · rw [if_pos otherNull, otherNull, queryValue_of_ne isNull]
                cases descending <;> simp [queryValue]
              · rw [if_neg otherNull]
                simp only [queryValue_lt_iff isNull otherNull, queryValue_lt_iff otherNull isNull, Bool.decide_eq_true]

/-- Without NULL the comparison is known. -/
theorem sqlLess_of_noNull {first second : Key} (sameLength : first.length = second.length) (noNull : .null ∉ first)
    (noNullSecond : .null ∉ second) :
    sqlLess collation first second = some true ↔ queryKey collation first < queryKey collation second := by
  induction first generalizing second with
  | nil =>
      cases second with
      | nil => simp [sqlLess, queryKey]
      | cons other others => cases sameLength
  | cons value values inductionHypothesis =>
      cases second with
      | nil => cases sameLength
      | cons other others =>
          rw [List.mem_cons, not_or] at noNull noNullSecond
          have notNull := Ne.symm noNull.1
          have otherNotNull := Ne.symm noNullSecond.1
          have tails := inductionHypothesis (Nat.succ.inj sameLength) noNull.2 noNullSecond.2
          rw [sqlLess, if_neg (not_or.mpr ⟨notNull, otherNotNull⟩), queryKey, queryKey, List.map_cons, List.map_cons,
            List.cons_lt_cons_iff, queryValue_lt_iff notNull otherNotNull,
            queryValue_eq_iff_of_ne notNull otherNotNull]
          by_cases same : value.sanitize = other.sanitize
          · have tied : ¬ sqlBefore collation value other = true := by
              rw [← queryValue_lt_iff notNull otherNotNull,
                (queryValue_eq_iff_of_ne notNull otherNotNull).mpr same]
              exact lt_irrefl _
            rw [if_pos same, tails]
            simp [tied, same, queryKey]
          · simp [same]

theorem eq_str_of_sanitize {value : FieldValue} {text : String} (isText : value.sanitize = .str text) :
    value = .str text := by
  unfold FieldValue.sanitize at isText
  split at isText <;> cases isText
  rfl

/-- Where the collation orders the texts as Python does, the keys are ordered as Python orders them. -/
theorem queryKey_lt_iff {first second : Key} (sameLength : first.length = second.length) (noNull : .null ∉ first)
    (noNullSecond : .null ∉ second) (alike : ∀ one two, .str one ∈ first → .str two ∈ second →
      (collation one two = true ↔ one < two)) :
    queryKey collation first < queryKey collation second ↔ sanitizeNones first < sanitizeNones second := by
  induction first generalizing second with
  | nil =>
      cases second with
      | nil => simp [queryKey, sanitizeNones]
      | cons other others => cases sameLength
  | cons value values inductionHypothesis =>
      cases second with
      | nil => cases sameLength
      | cons other others =>
          rw [List.mem_cons, not_or] at noNull noNullSecond
          have notNull := Ne.symm noNull.1
          have otherNotNull := Ne.symm noNullSecond.1
          have tails := inductionHypothesis (Nat.succ.inj sameLength) noNull.2 noNullSecond.2
            fun one two isFirst isSecond => alike one two (List.mem_cons_of_mem _ isFirst) (List.mem_cons_of_mem _ isSecond)
          have less : sqlBefore collation value other = true ↔ value.sanitize < other.sanitize := by
            have texts (one two : String) : SortValue.str one < .str two ↔ one < two :=
              Sum.Lex.inr_lt_inr_iff.trans Sum.Lex.inl_lt_inl_iff
            unfold sqlBefore
            split
            · rename_i one two isOne isTwo
              rw [isOne, isTwo, texts]
              apply alike one two
              · rw [eq_str_of_sanitize isOne]
                exact List.mem_cons_self
              · rw [eq_str_of_sanitize isTwo]
                exact List.mem_cons_self
            · exact decide_eq_true_iff
          simp only [queryKey, sanitizeNones, List.map_cons, List.cons_lt_cons_iff]
          rw [queryValue_lt_iff notNull otherNotNull, less, queryValue_eq_iff_of_ne notNull otherNotNull]
          exact or_congr_right (and_congr_right fun _ => tails)

end QueryOrder

end Zigopt.Pagination
