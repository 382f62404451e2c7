import SqlxData.Macros.TypeAnalyzer

/-!
Types as they are written in the signature of a method, and what the analyzer
reads off them. A path is known by its last segment only.
-/

namespace SqlxData.Macros

open SqlxData.Dynamic

/-! ### Syntax -/

mutual

/-- `syn::Type`. The arguments of other segments than the last are not looked
at. -/
inductive SynType
  | path (qualifier : List String) (ident : String) (arguments : PathArguments)
  | tuple (elems : List SynType)
  | reference (mutability : Bool) (elem : SynType)
  | slice (elem : SynType)
  | array (elem : SynType) (len : String)
  | implTrait (bounds : List TypeParamBound)
  | other (tokens : String)

inductive PathArguments
  | none
  | angleBracketed (args : List GenericArgument)
  | parenthesized (tokens : String)

inductive GenericArgument
  | type (ty : SynType)
  | assocType (ident : String) (ty : SynType)
  /-- A lifetime or a constant. -/
  | other (tokens : String)

inductive TypeParamBound
  | trait (qualifier : List String) (ident : String) (arguments : PathArguments)
  | lifetime (name : String)

end

structure TypeParam where
  ident : String
  bounds : List TypeParamBound

structure WherePredicate where
  boundedTy : SynType
  bounds : List TypeParamBound

structure Generics where
  params : List TypeParam
  whereClause : List WherePredicate

/-- `Name<ty>`. -/
def SynType.generic (qualifier : List String) (ident : String) (ty : SynType) : SynType :=
  .path qualifier ident (.angleBracketed [.type ty])

def SynType.named (ident : String) : SynType := .path [] ident .none

/-! ### Reading -/

/-- The first argument, if it is a type. -/
def PathArguments.firstType : PathArguments → Option SynType
  | .angleBracketed (.type ty :: _) => some ty
  | _ => .none

/-- The type of `Item = T` among the arguments. -/
def PathArguments.item : PathArguments → Option SynType
  | .angleBracketed args =>
      args.findSome? fun
        | .assocType ident ty => if ident = "Item" then some ty else .none
        | _ => .none
  | _ => .none

namespace SynType

/-- A path that ends in one of the names. -/
def endsWithAny (names : List String) : SynType → Bool
  | .path _ ident _ => names.contains ident
  | _ => false

def extractOptionType : SynType → Option SynType
  | .path _ ident arguments => if ident = "Option" then arguments.firstType else none
  | _ => none

def getVecInnerType : SynType → Option SynType
  | .path _ ident arguments => if ident = "Vec" then arguments.firstType else none
  | _ => none

/-- The `T` of the first bound that is an `Into<T>`. -/
def extractImplIntoType : SynType → Option SynType
  | .implTrait bounds =>
      bounds.findSome? fun
        | .trait _ ident arguments => if ident = "Into" then arguments.firstType else none
        | .lifetime _ => none
  | _ => none

/-- The item of the first bound that is an `IntoIterator<Item = T>`. -/
def extractIntoIteratorItemType (bounds : List TypeParamBound) : Option SynType :=
  bounds.findSome? fun
    | .trait _ ident arguments => if ident = "IntoIterator" then arguments.item else none
    | .lifetime _ => none

def getIterableInnerType : SynType → Option SynType
  | .path qualifier ident arguments => getVecInnerType (.path qualifier ident arguments)
  | .reference _ (.slice elem) => some elem
  | .array elem _ => some elem
  | .implTrait bounds => extractIntoIteratorItemType bounds
  | _ => none

def isTupleType : SynType → Bool
  | .tuple _ => true
  | _ => false

/-- The item of a bound, where it is a tuple or a reference to one. -/
def tupleItem : TypeParamBound → Option SynType
  | .trait _ ident (.angleBracketed args) =>
      if ident = "IntoIterator" then
        args.findSome? fun
          | .assocType item ty =>
              if item = "Item" then
                match ty with
                | .tuple _ => some ty
                | .reference _ (.tuple _) => some ty
                | _ => none
              else none
          | _ => none
      else none
  | _ => none

def extractTupleFromWhereClause (generics : Generics) (paramName : String) : Option SynType :=
  generics.whereClause.findSome? fun predicate =>
    match predicate.boundedTy with
    | .path _ ident _ => if ident = paramName then predicate.bounds.findSome? tupleItem else none
    | _ => none

def isTupleIterableType (generics : Generics) (ty : SynType) : Bool :=
  match ty.getIterableInnerType with
  | some inner => inner.isTupleType
  | none =>
      match ty with
      | .path [] ident _ => (extractTupleFromWhereClause generics ident).isSome
      | _ => false

def isPathU8 (ty : SynType) : Bool := ty.endsWithAny ["u8"]

def isVecU8Type (ty : SynType) : Bool := ty.getVecInnerType.any isPathU8

def isBytesType (ty : SynType) : Bool := ty.endsWithAny ["Bytes"]

def isAlreadyJsonWrapped (ty : SynType) : Bool := ty.endsWithAny ["Json"]

/-! ### Scalars -/

def basicScalars : List String :=
  ["i8", "i16", "i32", "i64", "i128", "u8", "u16", "u32", "u64", "u128", "f32", "f64",
    "bool", "char", "usize", "isize", "String"]

def complexScalars : List String :=
  ["Cow", "Uuid", "Hyphenated", "Simple", "Decimal", "BigDecimal", "Decimal", "Time", "Date",
    "DateTime", "NaiveDateTime", "NaiveDate", "NaiveTime", "PrimitiveDateTime", "OffsetDateTime",
    "Timestamp", "Span", "MacAddress", "Blob", "IpNet", "Ipv4Net", "Ipv6Net", "IpNetwork",
    "BitVec", "BString", "JsonValue"]

def postgresScalars : List String :=
  ["PgInterval", "PgMoney", "PgLTree", "PgLQuery", "PgCiText", "PgCube", "PgPoint", "PgLine",
    "PgLSeg", "PgBox", "PgPath", "PgPolygon", "PgCircle", "PgHstore", "PgTimeTz"]

def scalarNames (backend : Backend) : List String :=
  basicScalars ++ complexScalars ++ if backend = .postgres then postgresScalars else []

def isScalar (backend : Backend) (ty : SynType) : Bool := ty.endsWithAny (scalarNames backend)

/-! ### Generic types -/

theorem firstType_eq_some {arguments : PathArguments} {ty : SynType} :
    arguments.firstType = some ty ↔ ∃ rest, arguments = .angleBracketed (.type ty :: rest) := by
  constructor
  · intro h
    unfold PathArguments.firstType at h
    split at h
    · cases h
      exact ⟨_, rfl⟩
    · cases h
  · rintro ⟨rest, rfl⟩
    rfl

theorem extractOptionType_eq_some {ty inner : SynType} :
    ty.extractOptionType = some inner ↔
      ∃ qualifier rest, ty = .path qualifier "Option" (.angleBracketed (.type inner :: rest)) := by
  constructor
  · intro h
    cases ty <;> try cases h
    rename_i qualifier ident arguments
    rw [SynType.extractOptionType] at h
    split at h
    · obtain ⟨rest, rfl⟩ := firstType_eq_some.mp h
      subst_vars
      exact ⟨qualifier, rest, rfl⟩
    · cases h
  · rintro ⟨qualifier, rest, rfl⟩
    rfl

theorem getVecInnerType_eq_some {ty inner : SynType} :
    ty.getVecInnerType = some inner ↔
      ∃ qualifier rest, ty = .path qualifier "Vec" (.angleBracketed (.type inner :: rest)) := by
  constructor
  · intro h
    cases ty <;> try cases h
    rename_i qualifier ident arguments
    rw [SynType.getVecInnerType] at h
    split at h
    · obtain ⟨rest, rfl⟩ := firstType_eq_some.mp h
      subst_vars
      exact ⟨qualifier, rest, rfl⟩
    · cases h
  · rintro ⟨qualifier, rest, rfl⟩
    rfl

theorem sizeOf_extractOptionType {ty inner : SynType} (h : ty.extractOptionType = some inner) :
    sizeOf inner < sizeOf ty := by
  obtain ⟨qualifier, rest, rfl⟩ := extractOptionType_eq_some.mp h
  simp
  omega

end SynType

end SqlxData.Macros
