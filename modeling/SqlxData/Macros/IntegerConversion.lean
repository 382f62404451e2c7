import SqlxData.Macros.TupleFields

/-!
Integers read from SQLite: the database has all of them as `i64`. Some of the
generated code reads that and casts the value to the type of the method with
`as`, some reads the type of the method itself.
-/

namespace SqlxData.Macros

open SqlxData.Dynamic MacroEnv

/-! ### Casts of Rust -/

/-- The integer types that the SQLite build reads as `i64`. -/
inductive IntTy
  | u8 | u16 | u32 | u64 | usize
  | i8 | i16 | i32 | isize
  deriving DecidableEq, Repr

namespace IntTy

def ident : IntTy → String
  | .u8 => "u8"
  | .u16 => "u16"
  | .u32 => "u32"
  | .u64 => "u64"
  | .usize => "usize"
  | .i8 => "i8"
  | .i16 => "i16"
  | .i32 => "i32"
  | .isize => "isize"

def isSigned : IntTy → Bool
  | .u8 | .u16 | .u32 | .u64 | .usize => false
  | .i8 | .i16 | .i32 | .isize => true

/-- How many values the type has; addresses have 64 bits. -/
def size : IntTy → ℕ
  | .u8 | .i8 => 256
  | .u16 | .i16 => 65536
  | .u32 | .i32 => 4294967296
  | .u64 | .usize | .isize => 18446744073709551616

/-- The value is one of the type. -/
def InRange (t : IntTy) (v : ℤ) : Prop :=
  if t.isSigned then -(t.size / 2) ≤ v ∧ v < t.size / 2 else 0 ≤ v ∧ v < t.size

instance (t : IntTy) (v : ℤ) : Decidable (t.InRange v) :=
  inferInstanceAs (Decidable (if t.isSigned then _ ∧ _ else _ ∧ _))

/-- `v as t`: the low bits of the value. -/
def cast (t : IntTy) (v : ℤ) : ℤ := if t.isSigned then v.bmod t.size else v % t.size

theorem size_pos (t : IntTy) : 0 < t.size := by cases t <;> decide

theorem size_even (t : IntTy) : 2 * (t.size / 2) = t.size := by cases t <;> rfl

/-- A cast keeps the values of the type and no others. -/
theorem cast_eq_iff (t : IntTy) (v : ℤ) : t.cast v = v ↔ t.InRange v := by
  have hpos := t.size_pos
  have heven := t.size_even
  cases hsigned : t.isSigned with
  | true =>
      simp only [cast, InRange, hsigned, if_true]
      constructor
      · intro h
        have hle := Int.le_bmod (x := v) hpos
        have hlt := Int.bmod_lt (x := v) hpos
        rw [h] at hle hlt
        omega
      · rintro ⟨hle, hlt⟩
        exact Int.bmod_eq_of_le hle (by omega)
  | false =>
      simp only [cast, InRange, hsigned, Bool.false_eq_true, if_false]
      constructor
      · intro h
        have hle := Int.emod_nonneg v (b := t.size) (by omega)
        have hlt := Int.emod_lt_of_pos v (b := t.size) (by omega)
        rw [h] at hle hlt
        exact ⟨hle, hlt⟩
      · rintro ⟨hle, hlt⟩
        exact Int.emod_eq_of_lt hle hlt

def toTy (t : IntTy) : Ty := .ofIdent t.ident

def all : List IntTy := [.u8, .u16, .u32, .u64, .usize, .i8, .i16, .i32, .isize]

/-- The integer type a type is. -/
def ofTy (ty : Ty) : Option IntTy := all.find? fun t => t.toTy = ty

@[simp] theorem ofTy_toTy (t : IntTy) : ofTy t.toTy = some t := by
  cases t <;> rfl

end IntTy

/-! ### Reading a value -/

/-- How sqlx reads an integer column of SQLite: `i64` has the stored value, and
every other type has it or an error (it converts with `try_into`). -/
structure SqliteIntegers where
  decode : Ty → Int64 → Option ℤ
  decode_i64 : ∀ v, decode (.ofIdent "i64") v = some v.toInt
  decode_exact : ∀ ty v r, decode ty v = some r → r = v.toInt

/-- A column that is read and converted: the type it is read as, and what is
made of the value. -/
structure ReadPlan where
  readAs : Ty
  conversion : Conversion

def castTo (target : Ty) (v : ℤ) : ℤ :=
  match IntTy.ofTy target with
  | some t => t.cast v
  | none => v

def Conversion.apply : Conversion → ℤ → ℤ
  | .value, v => v
  | .cast target, v | .mapCast target, v => castTo target v
  | .nonzero, v | .mapNonzero, v => if v ≠ 0 then 1 else 0

/-- What becomes of a stored value, `Some` of a value written as the value;
`none` is an error. -/
def ReadPlan.outcome (S : SqliteIntegers) (plan : ReadPlan) (stored : Int64) : Option ℤ :=
  (S.decode ((extractOptionType plan.readAs).getD plan.readAs) stored).map plan.conversion.apply

/-- The value that comes out is the stored one, if none is an error. -/
def ReadPlan.Lossless (S : SqliteIntegers) (plan : ReadPlan) (stored : Int64) : Prop :=
  ∀ r, plan.outcome S stored = some r → r = stored.toInt

/-! ### The plans of the macro -/

namespace MacroEnv

variable (env : MacroEnv)

/-- An element of a tuple. -/
def elementPlan (columnName : List Char) (targetType : Ty) : ReadPlan :=
  ⟨env.structFieldType columnName targetType, env.conversionOf columnName targetType⟩

def scalarNeedsCasting (hasExplicitCasting : Bool) (target : Ty) : Bool :=
  !hasExplicitCasting && needsCasting env.backend target

def runtimeScalarType (hasExplicitCasting : Bool) (target : Ty) : Ty :=
  if env.scalarNeedsCasting hasExplicitCasting target then nativeType env.backend target else target

/-- Without a type in the generated call sqlx reads the type that is declared. -/
def declaredPlan (declared : Ty) : ReadPlan := ⟨declared, .value⟩

/-- A scalar query that fetches all rows, for the elements of its list. An
unchecked method leaves the type to inference. -/
def scalarFetchAll (isUnchecked hasExplicitCasting : Bool) (elementType : Ty) : ReadPlan :=
  if isUnchecked then declaredPlan elementType
  else
    let target := (extractOptionType elementType).getD elementType
    let casting := env.scalarNeedsCasting hasExplicitCasting target
    let runtimeType := env.runtimeScalarType hasExplicitCasting target
    if (extractOptionType elementType).isSome then
      ⟨.option runtimeType, if casting then optionCastExpr target else .value⟩
    else if casting then ⟨runtimeType, castExpr target⟩
    else ⟨runtimeType, .value⟩

/-- A scalar query that fetches a row or none, for a row it finds. -/
def scalarFetchOptional (isUnchecked hasExplicitCasting : Bool) (okType scalarType : Ty) :
    ReadPlan :=
  let optionalInner := (extractOptionType okType).getD scalarType
  if isUnchecked then declaredPlan optionalInner
  else
    let target := (extractOptionType optionalInner).getD optionalInner
    let casting := env.scalarNeedsCasting hasExplicitCasting target
    ⟨.option (env.runtimeScalarType hasExplicitCasting target),
      if casting then optionCastExpr target else .value⟩

/-- A scalar query with another fetch method. An option is not looked into. -/
def scalarFetchOne (isUnchecked hasExplicitCasting : Bool) (okType : Ty) : ReadPlan :=
  if isUnchecked then declaredPlan okType
  else
    let casting := env.scalarNeedsCasting hasExplicitCasting okType
    ⟨env.runtimeScalarType hasExplicitCasting okType, if casting then castExpr okType else .value⟩

end MacroEnv

/-- The fetch methods a scalar query tells apart. -/
inductive ScalarFetch
  | fetchAll
  | fetchOptional
  | other
  deriving DecidableEq

/-- The generators that write code for an element of a tuple or a scalar. -/
inductive Reader
  /-- `QueryAsGenerator::generate_tuple_query`, whose two branches convert alike,
  and `PaginatedGenerator::generate_tuple_pagination`. -/
  | tupleRow (isUnchecked : Bool) (columnName : List Char)
  /-- `StreamGenerator::generate_tuple_stream` reads the tuple itself. -/
  | tupleStream (isUnchecked : Bool)
  /-- `QueryScalarGenerator`; the types are those of the method. -/
  | scalarQuery (isUnchecked hasExplicitCasting : Bool) (fetch : ScalarFetch) (scalarType : Ty)
  | scalarStream (isUnchecked : Bool)
  /-- `MultiRowInsertGenerator::build_execution`, for the rows of RETURNING. -/
  | multiRowInsert

namespace MacroEnv

variable (env : MacroEnv)

/-- How a generator reads a value of the declared type. -/
def readPlan (declared : Ty) : Reader → ReadPlan
  | .tupleRow _ columnName => env.elementPlan columnName declared
  | .tupleStream _ => declaredPlan declared
  | .scalarQuery isUnchecked hasExplicitCasting .fetchAll _ =>
      env.scalarFetchAll isUnchecked hasExplicitCasting declared
  | .scalarQuery isUnchecked hasExplicitCasting .fetchOptional scalarType =>
      env.scalarFetchOptional isUnchecked hasExplicitCasting (.option declared) scalarType
  | .scalarQuery isUnchecked hasExplicitCasting .other _ =>
      env.scalarFetchOne isUnchecked hasExplicitCasting declared
  | .scalarStream _ => declaredPlan declared
  | .multiRowInsert => declaredPlan declared

end MacroEnv

/-- Does the generated code read the declared type, or one that is written in
the statement, and convert nothing? -/
def Reader.readsType (optional : Bool) : Reader → Bool
  | .tupleRow _ columnName => hasExplicitSqlxType columnName
  | .tupleStream _ => true
  | .scalarQuery isUnchecked hasExplicitCasting fetch _ =>
      isUnchecked || hasExplicitCasting || (fetch = .other && optional)
  | .scalarStream _ => true
  | .multiRowInsert => true

/-! ### What is lost -/

section Lossless

variable {S : SqliteIntegers} {stored : Int64}

theorem ReadPlan.lossless_value (readAs : Ty) : (ReadPlan.mk readAs .value).Lossless S stored := by
  intro r hr
  obtain ⟨v, hv, rfl⟩ := Option.map_eq_some_iff.mp hr
  exact S.decode_exact _ _ _ hv

/-- A cast of the value read as `i64` loses it exactly when it is out of
range. -/
theorem ReadPlan.lossless_cast_iff {plan : ReadPlan} (t : IntTy)
    (hread : (extractOptionType plan.readAs).getD plan.readAs = .ofIdent "i64")
    (hconversion : plan.conversion = .cast t.toTy ∨ plan.conversion = .mapCast t.toTy) :
    plan.Lossless S stored ↔ t.InRange stored.toInt := by
  have happly : ∀ v, plan.conversion.apply v = t.cast v := by
    intro v
    rcases hconversion with h | h <;> simp [h, Conversion.apply, castTo]
  have houtcome : plan.outcome S stored = some (t.cast stored.toInt) := by
    rw [ReadPlan.outcome, hread, S.decode_i64, Option.map_some, happly]
  rw [ReadPlan.Lossless, houtcome, ← t.cast_eq_iff]
  simp only [Option.some.injEq, forall_eq']

end Lossless

namespace IntTy

variable (t : IntTy)

/-- The type, or the option of it. -/
def elementTy (optional : Bool) : Ty := if optional then .option t.toTy else t.toTy

theorem extractOptionType_toTy : extractOptionType t.toTy = none := rfl

theorem extractOptionType_option (ty : Ty) : extractOptionType (.option ty) = some ty := rfl

theorem nativeType_toTy : nativeType .sqlite t.toTy = .ofIdent "i64" := by cases t <;> rfl

theorem needsCasting_toTy : needsCasting .sqlite t.toTy = true := by cases t <;> rfl

theorem needsCasting_option (ty : Ty) : needsCasting .sqlite (.option ty) = false := by
  have hnative : nativeType .sqlite (.option ty) = .option ty := rfl
  simp [needsCasting, hnative, typesEqual]

theorem isBool_toTy : isBool t.toTy = false := by cases t <;> rfl

theorem optionCastExpr_toTy : optionCastExpr t.toTy = .mapCast t.toTy := by
  rw [optionCastExpr, t.isBool_toTy]
  rfl

theorem castExpr_toTy : castExpr t.toTy = .cast t.toTy := by
  rw [castExpr, t.isBool_toTy]
  rfl

end IntTy

/-- The environment of a SQLite build. -/
def MacroEnv.sqlite (parseType : List Char → Option Ty) (isIdent : List Char → Bool) : MacroEnv :=
  ⟨.sqlite, parseType, isIdent⟩

section Plans

variable (S : SqliteIntegers) (parseType : List Char → Option Ty) (isIdent : List Char → Bool)
  (t : IntTy) (optional : Bool) (stored : Int64)

theorem lossless_elementPlan_iff (columnName : List Char) :
    ((MacroEnv.sqlite parseType isIdent).elementPlan columnName (t.elementTy optional)).Lossless S
        stored ↔
      hasExplicitSqlxType columnName ∨ t.InRange stored.toInt := by
  cases hexplicit : hasExplicitSqlxType columnName with
  | true =>
      simp only [elementPlan, conversionOf, hexplicit, if_true, true_or, iff_true]
      exact ReadPlan.lossless_value _
  | false =>
      simp only [Bool.false_eq_true, false_or]
      refine ReadPlan.lossless_cast_iff t ?_ ?_
      · simp only [elementPlan, structFieldType, hexplicit, Bool.false_eq_true, if_false]
        cases optional with
        | true => exact t.nativeType_toTy
        | false =>
            rw [nativeFieldType]
            simp only [IntTy.elementTy, Bool.false_eq_true, if_false, t.extractOptionType_toTy]
            exact congrArg (fun ty => (extractOptionType ty).getD ty) t.nativeType_toTy
      · simp only [elementPlan, conversionOf, hexplicit, Bool.false_eq_true, if_false]
        cases optional with
        | true =>
            right
            simp [IntTy.elementTy, IntTy.extractOptionType_option, generateConversionExpr,
              MacroEnv.sqlite, t.needsCasting_toTy, t.optionCastExpr_toTy]
        | false =>
            left
            simp [IntTy.elementTy, t.extractOptionType_toTy, generateConversionExpr,
              MacroEnv.sqlite, t.needsCasting_toTy, t.castExpr_toTy]

theorem scalarNeedsCasting_toTy (hasExplicitCasting : Bool) :
    (MacroEnv.sqlite parseType isIdent).scalarNeedsCasting hasExplicitCasting t.toTy =
      !hasExplicitCasting := by
  simp [scalarNeedsCasting, MacroEnv.sqlite, t.needsCasting_toTy]

theorem runtimeScalarType_toTy :
    (MacroEnv.sqlite parseType isIdent).runtimeScalarType false t.toTy = .ofIdent "i64" := by
  rw [runtimeScalarType, scalarNeedsCasting_toTy]
  exact t.nativeType_toTy

theorem getD_elementTy : (extractOptionType (t.elementTy optional)).getD (t.elementTy optional) =
    t.toTy := by
  cases optional <;> rfl

theorem lossless_scalarFetchAll_iff (isUnchecked hasExplicitCasting : Bool) :
    ((MacroEnv.sqlite parseType isIdent).scalarFetchAll isUnchecked hasExplicitCasting
        (t.elementTy optional)).Lossless S stored ↔
      (isUnchecked || hasExplicitCasting) ∨ t.InRange stored.toInt := by
  rw [scalarFetchAll]
  simp only [getD_elementTy, scalarNeedsCasting_toTy]
  cases isUnchecked with
  | true =>
      simp only [if_true, Bool.true_or, true_or, iff_true]
      exact ReadPlan.lossless_value _
  | false =>
      cases hasExplicitCasting with
      | true =>
          simp only [Bool.not_true, Bool.false_eq_true, if_false, Bool.or_true, true_or, iff_true]
          split <;> exact ReadPlan.lossless_value _
      | false =>
          simp only [Bool.not_false, if_true, Bool.false_eq_true, if_false, Bool.or_false, false_or,
            runtimeScalarType_toTy]
          split
          · exact ReadPlan.lossless_cast_iff t rfl (Or.inr t.optionCastExpr_toTy)
          · exact ReadPlan.lossless_cast_iff t rfl (Or.inl t.castExpr_toTy)

theorem lossless_scalarFetchOptional_iff (isUnchecked hasExplicitCasting : Bool)
    (scalarType : Ty) :
    ((MacroEnv.sqlite parseType isIdent).scalarFetchOptional isUnchecked hasExplicitCasting
        (.option (t.elementTy optional)) scalarType).Lossless S stored ↔
      (isUnchecked || hasExplicitCasting) ∨ t.InRange stored.toInt := by
  rw [scalarFetchOptional]
  simp only [IntTy.extractOptionType_option, Option.getD_some, getD_elementTy,
    scalarNeedsCasting_toTy]
  cases isUnchecked with
  | true =>
      simp only [if_true, Bool.true_or, true_or, iff_true]
      exact ReadPlan.lossless_value _
  | false =>
      cases hasExplicitCasting with
      | true =>
          simp only [Bool.not_true, Bool.false_eq_true, if_false, Bool.or_true, true_or, iff_true]
          exact ReadPlan.lossless_value _
      | false =>
          simp only [Bool.not_false, if_true, Bool.false_eq_true, if_false, Bool.or_false, false_or,
            runtimeScalarType_toTy]
          exact ReadPlan.lossless_cast_iff t rfl (Or.inr t.optionCastExpr_toTy)

theorem lossless_scalarFetchOne_iff (isUnchecked hasExplicitCasting : Bool) :
    ((MacroEnv.sqlite parseType isIdent).scalarFetchOne isUnchecked hasExplicitCasting
        (t.elementTy optional)).Lossless S stored ↔
      (isUnchecked || hasExplicitCasting || optional) ∨ t.InRange stored.toInt := by
  rw [scalarFetchOne]
  cases isUnchecked with
  | true =>
      simp only [if_true, Bool.true_or, true_or, iff_true]
      exact ReadPlan.lossless_value _
  | false =>
      cases optional with
      | true =>
          have hcasting : (MacroEnv.sqlite parseType isIdent).scalarNeedsCasting
              hasExplicitCasting (t.elementTy true) = false := by
            simp [scalarNeedsCasting, MacroEnv.sqlite, IntTy.elementTy, IntTy.needsCasting_option]
          simp only [hcasting, Bool.false_eq_true, if_false, Bool.or_true, true_or, iff_true]
          exact ReadPlan.lossless_value _
      | false =>
          have htype : t.elementTy false = t.toTy := rfl
          simp only [htype, scalarNeedsCasting_toTy]
          cases hasExplicitCasting with
          | true =>
              simp only [Bool.not_true, Bool.false_eq_true, if_false, Bool.or_true, Bool.true_or,
                true_or, iff_true]
              exact ReadPlan.lossless_value _
          | false =>
              simp only [Bool.not_false, if_true, Bool.false_eq_true, if_false, Bool.or_self,
                false_or, runtimeScalarType_toTy]
              exact ReadPlan.lossless_cast_iff t rfl (Or.inl t.castExpr_toTy)

end Plans

/-- Integers come out of a SQLite build as they are stored exactly where the
value is in the range of the type, or where the generated code reads the type
itself. -/
theorem sqlite_integers_iff (S : SqliteIntegers) (parseType : List Char → Option Ty)
    (isIdent : List Char → Bool) (t : IntTy) (optional : Bool) (stored : Int64)
    (reader : Reader) :
    ((MacroEnv.sqlite parseType isIdent).readPlan (t.elementTy optional) reader).Lossless S stored ↔
      reader.readsType optional = true ∨ t.InRange stored.toInt := by
  cases reader with
  | tupleRow isUnchecked columnName =>
      exact lossless_elementPlan_iff S parseType isIdent t optional stored columnName
  | scalarQuery isUnchecked hasExplicitCasting fetch scalarType =>
      cases fetch with
      | fetchAll =>
          simpa [readPlan, Reader.readsType] using
            lossless_scalarFetchAll_iff S parseType isIdent t optional stored isUnchecked
              hasExplicitCasting
      | fetchOptional =>
          simpa [readPlan, Reader.readsType] using
            lossless_scalarFetchOptional_iff S parseType isIdent t optional stored isUnchecked
              hasExplicitCasting scalarType
      | other =>
          simpa [readPlan, Reader.readsType] using
            lossless_scalarFetchOne_iff S parseType isIdent t optional stored isUnchecked
              hasExplicitCasting
  | tupleStream | scalarStream | multiRowInsert =>
      -- nothing is converted
      exact iff_of_true (ReadPlan.lossless_value _) (.inl rfl)

/-! ### An age of 300 -/

namespace IntegerExample

/-- `i64` as it is stored, other integers where they are in range. -/
def sqlx : SqliteIntegers where
  decode ty v :=
    if ty = .ofIdent "i64" then some v.toInt
    else (IntTy.ofTy ty).bind fun t => if t.InRange v.toInt then some v.toInt else none
  decode_i64 v := if_pos rfl
  decode_exact ty v r h := by
    split at h
    · exact (Option.some.inj h).symm
    · obtain ⟨t, -, ht⟩ := Option.bind_eq_some_iff.mp h
      split at ht
      · exact (Option.some.inj ht).symm
      · cases ht

def env : MacroEnv := .sqlite (fun _ => none) fun _ => true

end IntegerExample

open IntegerExample

/-- 300 as `u8` is 44, and -1 as `Option<u64>` is the largest number; a stream
has an error instead. -/
theorem sqlite_integers_change :
    (env.readPlan (.ofIdent "u8") (.tupleRow false "age".toList)).outcome sqlx 300 = some 44 ∧
      ¬(env.readPlan (.ofIdent "u8") (.tupleRow false "age".toList)).Lossless sqlx 300 ∧
      (env.readPlan (.option (.ofIdent "u64"))
        (.scalarQuery false false .fetchAll (.ofIdent "u64"))).outcome sqlx (-1) =
          some 18446744073709551615 ∧
      ¬(env.readPlan (.option (.ofIdent "u64"))
        (.scalarQuery false false .fetchAll (.ofIdent "u64"))).Lossless sqlx (-1) ∧
      (env.readPlan (.ofIdent "u8") (.tupleStream false)).outcome sqlx 300 = none := by
  have hage : (env.readPlan (.ofIdent "u8") (.tupleRow false "age".toList)).outcome sqlx 300 =
      some 44 := by
    decide
  have hall : (env.readPlan (.option (.ofIdent "u64"))
      (.scalarQuery false false .fetchAll (.ofIdent "u64"))).outcome sqlx (-1) =
        some 18446744073709551615 := by
    decide
  exact ⟨hage, fun h => absurd (h 44 hage) (by decide), hall,
    fun h => absurd (h _ hall) (by decide), by decide⟩

end SqlxData.Macros
