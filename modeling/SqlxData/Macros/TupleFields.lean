import SqlxData.Macros.TypeAnalyzer

/-!
How the macro pairs the columns of a statement with the elements of a tuple
type: the row struct, the conversion of its fields, and the four generators
that write them.
-/

namespace SqlxData.Macros

open SqlxData.Dynamic

/-- An error of a generator, or a panic of the macro. -/
inductive MacroError
  /-- `found` are the columns the message ends with, in their debug form. -/
  | error (msg : String) (found : Option (List (List Char)))
  | panic (msg : String)
  deriving DecidableEq

/-! ### What is generated -/

structure Field where
  name : List Char
  type : Ty
  deriving DecidableEq

/-- What becomes of the value of a field. -/
inductive Conversion
  | value
  /-- `value as target` -/
  | cast (target : Ty)
  /-- `value != 0` -/
  | nonzero
  /-- `value.map(|v| v as target)` -/
  | mapCast (target : Ty)
  /-- `value.map(|v| v != 0)` -/
  | mapNonzero
  deriving DecidableEq

structure RowConversion where
  name : List Char
  conversion : Conversion
  deriving DecidableEq

def castExpr (target : Ty) : Conversion := if isBool target then .nonzero else .cast target

def optionCastExpr (target : Ty) : Conversion :=
  if isBool target then .mapNonzero else .mapCast target

/-- The fields of `QueryTuple` and, where rows are converted, the conversion
of each. -/
structure TupleCode where
  structFields : List Field
  conversionRow : Option (List RowConversion)
  deriving DecidableEq

/-! ### The row struct and its conversion -/

/-- What the generators read of their surroundings: the build, the type
parser of syn, and the texts that proc_macro2 takes for identifiers. -/
structure MacroEnv where
  backend : Backend
  parseType : List Char → Option Ty
  isIdent : List Char → Bool

namespace MacroEnv

variable (env : MacroEnv)

/-- `format_ident!`. -/
def formatIdent (text : List Char) : Except MacroError (List Char) :=
  if env.isIdent text then .ok text
  else .error (.panic ("\"" ++ String.ofList text ++ "\" is not a valid Ident"))

def generateConversionExpr (targetType : Ty) (isOption : Bool) : Conversion :=
  if !needsCasting env.backend targetType then .value
  else if isOption then optionCastExpr targetType
  else castExpr targetType

/-- The type the database has for an element. -/
def nativeFieldType (targetType : Ty) : Ty :=
  match extractOptionType targetType with
  | some inner => .option (nativeType env.backend inner)
  | none => nativeType env.backend targetType

def structFieldType (columnName : List Char) (targetType : Ty) : Ty :=
  if hasExplicitSqlxType columnName then
    match extractSqlxExplicitType env.parseType columnName with
    | some explicitType =>
        if (extractOptionType targetType).isSome then .option explicitType else explicitType
    | none => env.nativeFieldType targetType
  else env.nativeFieldType targetType

def conversionOf (columnName : List Char) (targetType : Ty) : Conversion :=
  if hasExplicitSqlxType columnName then .value
  else
    match extractOptionType targetType with
    | some inner => env.generateConversionExpr inner true
    | none => env.generateConversionExpr targetType false

/-! ### The lists -/

/-- Runs over the columns; the `i`-th is paired with `tuple_types[i]`. -/
def forColumns {α : Type} (tupleTypes : List Ty) (make : List Char → List Char → Ty → α) :
    ℕ → List (List Char) → Except MacroError (List α)
  | _, [] => .ok []
  | i, columnName :: columns => do
      let fieldName ← env.formatIdent (extractColumnName columnName)
      let targetType ← match tupleTypes[i]? with
        | some targetType => .ok targetType
        | none => .error (.panic "index out of bounds")
      let rest ← forColumns tupleTypes make (i + 1) columns
      .ok (make fieldName columnName targetType :: rest)

def generateConversionRow (columns : List (List Char)) (tupleTypes : List Ty) :
    Except MacroError (List RowConversion) :=
  env.forColumns tupleTypes (fun fieldName columnName targetType =>
    ⟨fieldName, env.conversionOf columnName targetType⟩) 0 columns

def generateStructFields (columns : List (List Char)) (tupleTypes : List Ty) :
    Except MacroError (List Field) :=
  env.forColumns tupleTypes (fun fieldName columnName targetType =>
    ⟨fieldName, env.structFieldType columnName targetType⟩) 0 columns

/-! ### The generators -/

def generateTupleQuery (columns : List (List Char)) (tupleTypes : List Ty) :
    Except MacroError TupleCode :=
  if columns.length ≠ tupleTypes.length then
    .error (.error ("Tuple has " ++ toString tupleTypes.length ++ " elements but SQL query returns " ++
      toString columns.length ++ " columns. Columns found: ") (some columns))
  else do
    let structFields ← env.generateStructFields columns tupleTypes
    let conversionRow ← env.generateConversionRow columns tupleTypes
    .ok ⟨structFields, some conversionRow⟩

/-- `pageRequest` is the dynamic parameter of the method. -/
def generateTuplePagination (pageRequest : Option String) (columns : List (List Char))
    (tupleTypes : List Ty) : Except MacroError TupleCode :=
  if columns.length ≠ tupleTypes.length then
    .error (.error ("Tuple has " ++ toString tupleTypes.length ++ " elements but SQL query returns " ++
      toString columns.length ++ " columns") none)
  else do
    let structFields ← env.generateStructFields columns tupleTypes
    let conversionRow ← env.generateConversionRow columns tupleTypes
    match pageRequest with
    | some _ => .ok ⟨structFields, some conversionRow⟩
    | none => .error (.error ("Page<T> return type requires a dynamic parameter " ++
        "(impl IntoParams, Params, PaginationParams, etc.)") none)

/-- The rows of the stream are not converted. The fields are made for unchecked
methods too, which do not print them. -/
def generateTupleStream (columns : List (List Char)) (tupleTypes : List Ty) :
    Except MacroError TupleCode := do
  let structFields ← env.generateStructFields columns tupleTypes
  .ok ⟨structFields, none⟩

/-- The fields of the tuples a multi-row INSERT returns. -/
def zipFields : List (List Char × Ty) → Except MacroError (List Field)
  | [] => .ok []
  | (col, ty) :: pairs => do
      let name ← env.formatIdent (extractColumnName col)
      let rest ← zipFields pairs
      .ok (⟨name, ty⟩ :: rest)

/-- `MultiRowInsertGenerator::generate_tuple_struct`. -/
def generateTupleStruct (columns : List (List Char)) (tupleTypes : List Ty) :
    Except MacroError TupleCode := do
  let fields ← env.zipFields (columns.zip tupleTypes)
  .ok ⟨fields, none⟩

/-! ### The law of the arity -/

/-- The outcome of a generator whose field for a column and an element is
`field` and whose conversion of it is `conversion`: an error when the numbers
of columns and elements differ; else a field for each column, the `i`-th made
from the `i`-th column and the `i`-th element. -/
def ChecksArity (columns : List (List Char)) (tupleTypes : List Ty)
    (field : List Char → Ty → Field) (conversion : Option (List Char → Ty → RowConversion))
    (outcome : Except MacroError TupleCode) : Prop :=
  (columns.length ≠ tupleTypes.length ∧ ∃ msg found, outcome = .error (.error msg found)) ∨
    (columns.length = tupleTypes.length ∧ ∃ code, outcome = .ok code ∧
      code.structFields.length = columns.length ∧
      (∀ (i : ℕ) column ty, columns[i]? = some column → tupleTypes[i]? = some ty →
        code.structFields[i]? = some (field column ty)) ∧
      code.conversionRow = conversion.map (List.zipWith · columns tupleTypes))

/-- Every column has a name that is an identifier. -/
def AllNamed (columns : List (List Char)) : Prop :=
  ∀ column ∈ columns, env.isIdent (extractColumnName column)

instance (columns : List (List Char)) : Decidable (env.AllNamed columns) :=
  inferInstanceAs (Decidable (∀ column ∈ columns, _))

def rowField (column : List Char) (ty : Ty) : Field :=
  ⟨extractColumnName column, env.structFieldType column ty⟩

def rowConversion (column : List Char) (ty : Ty) : RowConversion :=
  ⟨extractColumnName column, env.conversionOf column ty⟩

/-- The multi-row INSERT takes the type of the element as it is. -/
def returnedField (column : List Char) (ty : Ty) : Field := ⟨extractColumnName column, ty⟩

variable {env}

theorem formatIdent_of_isIdent {text : List Char} (h : env.isIdent text) :
    env.formatIdent text = .ok text := if_pos h

theorem formatIdent_of_not_isIdent {text : List Char} (h : ¬env.isIdent text) :
    ∃ msg, env.formatIdent text = .error (.panic msg) := ⟨_, if_neg h⟩

/-- With enough elements and names all columns get through. -/
theorem forColumns_eq {α : Type} {tupleTypes : List Ty} {make : List Char → List Char → Ty → α}
    {columns : List (List Char)} {i : ℕ} (hnamed : env.AllNamed columns)
    (hlength : i + columns.length ≤ tupleTypes.length) :
    env.forColumns tupleTypes make i columns =
      .ok (List.zipWith (fun column ty => make (extractColumnName column) column ty) columns
        (tupleTypes.drop i)) := by
  induction columns generalizing i with
  | nil => simp [forColumns]
  | cons column columns ih =>
      have hi : i < tupleTypes.length := by
        rw [List.length_cons] at hlength
        omega
      have hrest : i + 1 + columns.length ≤ tupleTypes.length := by
        rw [List.length_cons] at hlength
        omega
      rw [forColumns, formatIdent_of_isIdent (hnamed column List.mem_cons_self),
        List.getElem?_eq_getElem hi, ih (fun c hc => hnamed c (List.mem_cons_of_mem _ hc)) hrest,
        List.drop_eq_getElem_cons hi]
      rfl

/-- Otherwise the macro panics. -/
theorem forColumns_panics {α : Type} {tupleTypes : List Ty}
    {make : List Char → List Char → Ty → α} {columns : List (List Char)} {i : ℕ}
    (h : ¬(env.AllNamed columns ∧ (columns = [] ∨ i + columns.length ≤ tupleTypes.length))) :
    ∃ msg, env.forColumns tupleTypes make i columns = .error (.panic msg) := by
  induction columns generalizing i with
  | nil => exact absurd ⟨by simp [AllNamed], Or.inl rfl⟩ h
  | cons column columns ih =>
      by_cases hident : env.isIdent (extractColumnName column)
      · by_cases hi : i < tupleTypes.length
        · have hrest : ¬(env.AllNamed columns ∧
              (columns = [] ∨ i + 1 + columns.length ≤ tupleTypes.length)) := by
            rintro ⟨hnamed, hlength⟩
            refine h ⟨List.forall_mem_cons.mpr ⟨hident, hnamed⟩, Or.inr ?_⟩
            rw [List.length_cons]
            rcases hlength with rfl | hlength
            · exact hi
            · omega
          obtain ⟨msg, hpanic⟩ := ih hrest
          refine ⟨msg, ?_⟩
          rw [forColumns, formatIdent_of_isIdent hident, List.getElem?_eq_getElem hi, hpanic]
          rfl
        · refine ⟨"index out of bounds", ?_⟩
          rw [forColumns, formatIdent_of_isIdent hident, List.getElem?_eq_none (by omega)]
          rfl
      · obtain ⟨msg, hpanic⟩ := formatIdent_of_not_isIdent hident
        refine ⟨msg, ?_⟩
        rw [forColumns, hpanic]
        rfl

theorem zipFields_eq {pairs : List (List Char × Ty)}
    (hnamed : ∀ pair ∈ pairs, env.isIdent (extractColumnName pair.1)) :
    env.zipFields pairs = .ok (pairs.map fun pair => returnedField pair.1 pair.2) := by
  induction pairs with
  | nil => rfl
  | cons pair pairs ih =>
      obtain ⟨hident, hrest⟩ := List.forall_mem_cons.mp hnamed
      rw [zipFields, formatIdent_of_isIdent hident, ih hrest]
      rfl

theorem zipFields_panics {pairs : List (List Char × Ty)}
    (h : ¬∀ pair ∈ pairs, env.isIdent (extractColumnName pair.1)) :
    ∃ msg, env.zipFields pairs = .error (.panic msg) := by
  induction pairs with
  | nil => exact absurd (by simp) h
  | cons pair pairs ih =>
      rw [List.forall_mem_cons, not_and_or] at h
      by_cases hident : env.isIdent (extractColumnName pair.1)
      · obtain ⟨msg, hpanic⟩ := ih (h.resolve_left (not_not_intro hident))
        refine ⟨msg, ?_⟩
        rw [zipFields, formatIdent_of_isIdent hident, hpanic]
        rfl
      · obtain ⟨msg, hpanic⟩ := formatIdent_of_not_isIdent hident
        refine ⟨msg, ?_⟩
        rw [zipFields, hpanic]
        rfl

/-! ### Which generators keep the law -/

section Law

variable {columns : List (List Char)} {tupleTypes : List Ty} {field : List Char → Ty → Field}
  {conversion : Option (List Char → Ty → RowConversion)}

theorem checksArity_zipWith (hlength : columns.length = tupleTypes.length) :
    ChecksArity columns tupleTypes field conversion
      (.ok ⟨List.zipWith field columns tupleTypes,
        conversion.map (List.zipWith · columns tupleTypes)⟩) := by
  refine Or.inr ⟨hlength, _, rfl, ?_, fun i column ty hcolumn hty => ?_, rfl⟩
  · rw [List.length_zipWith, hlength, Nat.min_self]
  · rw [List.getElem?_zipWith, hcolumn, hty]

theorem not_checksArity_panic (msg : String) :
    ¬ChecksArity columns tupleTypes field conversion (.error (.panic msg)) := by
  rintro (⟨-, msg', found, herror⟩ | ⟨-, code, hok, -⟩)
  · cases herror
  · cases hok

/-- An answer without an error is wrong when the numbers differ. -/
theorem not_checksArity_ok (hlength : columns.length ≠ tupleTypes.length) (code : TupleCode) :
    ¬ChecksArity columns tupleTypes field conversion (.ok code) := by
  rintro (⟨-, msg, found, herror⟩ | ⟨heq, -⟩)
  · cases herror
  · exact hlength heq

theorem forColumns_all {α : Type} {make : List Char → List Char → Ty → α}
    (hnamed : env.AllNamed columns) (hlength : columns.length ≤ tupleTypes.length) :
    env.forColumns tupleTypes make 0 columns =
      .ok (List.zipWith (fun column ty => make (extractColumnName column) column ty) columns
        tupleTypes) := by
  rw [forColumns_eq hnamed (by omega), List.drop_zero]

theorem forColumns_panics_of_not {α : Type} {make : List Char → List Char → Ty → α}
    (h : ¬(env.AllNamed columns ∧ columns.length ≤ tupleTypes.length)) :
    ∃ msg, env.forColumns tupleTypes make 0 columns = .error (.panic msg) := by
  refine forColumns_panics ?_
  rintro ⟨hnamed, rfl | hlength⟩
  · exact h ⟨hnamed, Nat.zero_le _⟩
  · exact h ⟨hnamed, by omega⟩

variable (env columns tupleTypes)

/-- A generator that checks the numbers first and then makes fields and
conversions. -/
theorem checksArity_rows_iff {outcome : Except MacroError TupleCode}
    (hdiffer : columns.length ≠ tupleTypes.length → ∃ msg found,
      outcome = .error (.error msg found))
    (hagree : columns.length = tupleTypes.length → outcome = do
      let structFields ← env.generateStructFields columns tupleTypes
      let conversionRow ← env.generateConversionRow columns tupleTypes
      .ok ⟨structFields, some conversionRow⟩) :
    ChecksArity columns tupleTypes env.rowField (some env.rowConversion) outcome ↔
      (columns.length = tupleTypes.length → env.AllNamed columns) := by
  by_cases hlength : columns.length = tupleTypes.length
  · rw [hagree hlength]
    by_cases hnamed : env.AllNamed columns
    · refine iff_of_true ?_ fun _ => hnamed
      rw [generateStructFields, generateConversionRow, forColumns_all hnamed hlength.le,
        forColumns_all hnamed hlength.le]
      exact checksArity_zipWith hlength
    · refine iff_of_false ?_ fun h => hnamed (h hlength)
      obtain ⟨msg, hpanic⟩ : ∃ msg, env.generateStructFields columns tupleTypes =
        .error (.panic msg) := forColumns_panics_of_not fun h => hnamed h.1
      rw [hpanic]
      exact not_checksArity_panic msg
  · exact iff_of_true (Or.inl ⟨hlength, hdiffer hlength⟩) fun h => absurd h hlength

theorem generateTupleQuery_iff :
    ChecksArity columns tupleTypes env.rowField (some env.rowConversion)
        (env.generateTupleQuery columns tupleTypes) ↔
      (columns.length = tupleTypes.length → env.AllNamed columns) := by
  rw [generateTupleQuery]
  exact checksArity_rows_iff env columns tupleTypes (fun h => ⟨_, _, if_pos h⟩)
    fun h => if_neg (not_not_intro h)

theorem generateTuplePagination_iff (pageRequest : String) :
    ChecksArity columns tupleTypes env.rowField (some env.rowConversion)
        (env.generateTuplePagination (some pageRequest) columns tupleTypes) ↔
      (columns.length = tupleTypes.length → env.AllNamed columns) := by
  rw [generateTuplePagination]
  exact checksArity_rows_iff env columns tupleTypes (fun h => ⟨_, _, if_pos h⟩)
    fun h => if_neg (not_not_intro h)

theorem generateTupleStream_iff :
    ChecksArity columns tupleTypes env.rowField none
        (env.generateTupleStream columns tupleTypes) ↔
      columns.length = tupleTypes.length ∧ env.AllNamed columns := by
  rw [generateTupleStream]
  by_cases hmade : env.AllNamed columns ∧ columns.length ≤ tupleTypes.length
  · rw [generateStructFields, forColumns_all hmade.1 hmade.2]
    by_cases hlength : columns.length = tupleTypes.length
    · exact iff_of_true (checksArity_zipWith hlength) ⟨hlength, hmade.1⟩
    · exact iff_of_false (not_checksArity_ok hlength _) fun h => hlength h.1
  · refine iff_of_false ?_ fun h => hmade ⟨h.2, h.1.le⟩
    obtain ⟨msg, hpanic⟩ : ∃ msg, env.generateStructFields columns tupleTypes =
      .error (.panic msg) := forColumns_panics_of_not hmade
    rw [hpanic]
    exact not_checksArity_panic msg

theorem generateTupleStruct_iff :
    ChecksArity columns tupleTypes returnedField none
        (env.generateTupleStruct columns tupleTypes) ↔
      columns.length = tupleTypes.length ∧ env.AllNamed columns := by
  rw [generateTupleStruct]
  by_cases hnamed : ∀ pair ∈ columns.zip tupleTypes, env.isIdent (extractColumnName pair.1)
  · rw [zipFields_eq hnamed]
    by_cases hlength : columns.length = tupleTypes.length
    · have hall : env.AllNamed columns := by
        intro column hcolumn
        rw [← List.map_fst_zip hlength.le] at hcolumn
        obtain ⟨pair, hpair, rfl⟩ := List.mem_map.mp hcolumn
        exact hnamed pair hpair
      refine iff_of_true ?_ ⟨hlength, hall⟩
      have hzip : (columns.zip tupleTypes).map (fun pair => returnedField pair.1 pair.2) =
          List.zipWith returnedField columns tupleTypes := List.map_zip_eq_zipWith
      rw [hzip]
      exact checksArity_zipWith hlength
    · exact iff_of_false (not_checksArity_ok hlength _) fun h => hlength h.1
  · obtain ⟨msg, hpanic⟩ := zipFields_panics hnamed
    rw [hpanic]
    refine iff_of_false (not_checksArity_panic msg) fun h => hnamed fun pair hpair => ?_
    exact h.2 _ (List.of_mem_zip hpair).1

end Law

end MacroEnv

open MacroEnv

/-- The plain and the paginated query keep the law unless a column has no
identifier for its name; the stream and the multi-row INSERT keep it only where
the numbers agree. -/
theorem tuple_arity_iff (env : MacroEnv) (columns : List (List Char)) (tupleTypes : List Ty)
    (pageRequest : String) :
    (ChecksArity columns tupleTypes env.rowField (some env.rowConversion)
        (env.generateTupleQuery columns tupleTypes) ↔
      (columns.length = tupleTypes.length → env.AllNamed columns)) ∧
    (ChecksArity columns tupleTypes env.rowField (some env.rowConversion)
        (env.generateTuplePagination (some pageRequest) columns tupleTypes) ↔
      (columns.length = tupleTypes.length → env.AllNamed columns)) ∧
    (ChecksArity columns tupleTypes env.rowField none
        (env.generateTupleStream columns tupleTypes) ↔
      columns.length = tupleTypes.length ∧ env.AllNamed columns) ∧
    (ChecksArity columns tupleTypes returnedField none
        (env.generateTupleStruct columns tupleTypes) ↔
      columns.length = tupleTypes.length ∧ env.AllNamed columns) :=
  ⟨generateTupleQuery_iff env columns tupleTypes,
    generateTuplePagination_iff env columns tupleTypes pageRequest,
    generateTupleStream_iff env columns tupleTypes, generateTupleStruct_iff env columns tupleTypes⟩

/-! ### Two columns, one element -/

namespace TupleExample

/-- Names of letters, and no explicit types. -/
def env : MacroEnv where
  backend := .sqlite
  parseType _ := none
  isIdent text := text ≠ [] && text.all fun c => 'a' ≤ c && c ≤ 'z'

def idAndName : List (List Char) := ["id".toList, "name".toList]

def ids : List Ty := [.ofIdent "i64"]

end TupleExample

open TupleExample

/-- The stream panics for a column too many and leaves out an element too many;
the multi-row INSERT leaves out both. -/
theorem tuple_arity_unchecked :
    (¬ChecksArity idAndName ids env.rowField none (env.generateTupleStream idAndName ids) ∧
      env.generateTupleStream idAndName ids = .error (.panic "index out of bounds")) ∧
    (¬ChecksArity [] ids env.rowField none (env.generateTupleStream [] ids) ∧
      env.generateTupleStream [] ids = .ok ⟨[], none⟩) ∧
    ¬ChecksArity idAndName ids returnedField none (env.generateTupleStruct idAndName ids) ∧
      env.generateTupleStruct idAndName ids = .ok ⟨[⟨"id".toList, .ofIdent "i64"⟩], none⟩ := by
  refine ⟨⟨?_, by decide⟩, ⟨?_, by decide⟩, ?_, by decide⟩
  · rw [generateTupleStream_iff]
    decide
  · rw [generateTupleStream_iff]
    decide
  · rw [generateTupleStruct_iff]
    decide

end SqlxData.Macros
