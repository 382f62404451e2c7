import SqlxData.Dynamic.Builder
import SqlxData.Macros.AliasSystem

/-!
The questions the macro asks about the types of a method and about the names
of its columns: what Rust type the database has for a type, and what of a name
is sqlx's cast syntax.
-/

namespace SqlxData.Macros

open SqlxData.Dynamic

/-! ### Types -/

/-- `syn::Type`, as far as the analyzer looks into it. A path is its last
segment, with the tokens in front of it; everything else is kept as tokens. -/
inductive Ty
  /-- A last segment without arguments. -/
  | plain (leading ident : String)
  /-- A last segment whose first argument is the type `first`. -/
  | generic (leading ident : String) (first : Ty) (others : String)
  /-- A last segment with other arguments. -/
  | applied (leading ident arguments : String)
  | other (tokens : String)
  deriving DecidableEq

namespace Ty

/-- A type that is a single identifier. -/
def ofIdent (ident : String) : Ty := .plain "" ident

/-- `Option<inner>`. -/
def option (inner : Ty) : Ty := .generic "" "Option" inner ""

/-- `last_ident_safe` of the path, if the type is one. -/
def lastIdent : Ty → Option String
  | .plain _ ident => some ident
  | .generic _ ident _ _ => some ident
  | .applied _ ident _ => some ident
  | .other _ => none

end Ty

def typesEqual (a b : Ty) : Bool := a = b

def extractOptionType : Ty → Option Ty
  | .generic _ ident first _ => if ident = "Option" then some first else none
  | _ => none

/-- The identifiers the SQLite build reads as `i64`. -/
def readAsI64 : List String :=
  ["u64", "u32", "u16", "u8", "usize", "i32", "i16", "i8", "isize"]

/-- The Rust type in which the database has the values of a type. -/
def nativeType (backend : Backend) (ty : Ty) : Ty :=
  match ty.lastIdent with
  | none => ty
  | some ident =>
      if backend = .sqlite then
        if ident ∈ readAsI64 then .ofIdent "i64"
        else if ident = "f32" then .ofIdent "f64"
        else if ident = "bool" then .ofIdent "i64"
        else ty
      else ty

def needsCasting (backend : Backend) (targetType : Ty) : Bool :=
  !typesEqual targetType (nativeType backend targetType)

/-- `is_ident("bool")`: a path of one segment. -/
def isBool (ty : Ty) : Bool := ty = .ofIdent "bool"

/-! ### Column names -/

/-- Just the name in a column name with cast syntax. -/
def extractColumnName (fullName : List Char) : List Char :=
  let baseName := match Text.splitOnce ':' fullName with
    | some (before, _) => Text.trim isWhitespace before
    | none => fullName
  baseName.rdropWhile (· = '!')

/-- `parseType` is the type parser of syn. -/
def extractSqlxExplicitType (parseType : List Char → Option Ty) (columnName : List Char) :
    Option Ty :=
  match Text.splitOnce ':' columnName with
  | some (_, behind) => parseType (Text.trim isWhitespace behind)
  | none => none

def hasExplicitSqlxType (columnName : List Char) : Bool := columnName.contains ':'

end SqlxData.Macros
