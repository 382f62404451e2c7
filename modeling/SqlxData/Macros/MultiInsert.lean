import SqlxData.Core.ParserInsert
import SqlxData.Dynamic.Builder
import SqlxData.Macros.AliasSystem

/-!
The method the macro writes for an INSERT of a list of tuples: sqlx's query
builder gets the head of the template, one row of fresh placeholders for each
tuple, the conflict clause and the RETURNING list.
-/

namespace SqlxData.Macros

open SqlxData.Sqlparser SqlxData.Core SqlxData.Dynamic

/-! ### sqlx's query builder -/

/-- The placeholder of the last of `count` arguments. -/
def formatPlaceholder : Backend → ℕ → String
  | .postgres, count => "$" ++ toString count
  | _, _ => "?"

/-- `(…, …)` with a placeholder for each of `n` arguments behind `count` others. -/
def tupleText (backend : Backend) (count n : ℕ) : List Char :=
  "(".toList ++
    ", ".toList.intercalate ((List.range' (count + 1) n).map fun k =>
      (formatPlaceholder backend k).toList) ++ ")".toList

def tupleTexts {β : Type} (backend : Backend) : ℕ → List (List β) → List (List Char)
  | _, [] => []
  | count, tuple :: tuples =>
      tupleText backend count tuple.length :: tupleTexts backend (count + tuple.length) tuples

/-- sqlx's query builder: the text so far and the bound arguments.
`pushValues` takes the values its closure binds for each tuple, one `push_bind`
behind the other. Without a tuple it pushes the keyword alone, or panics: a
debug build asserts that there is one. -/
structure SqlxQueryBuilder (backend : Backend) (β : Type) where
  Builder : Type
  sql : Builder → List Char
  arguments : Builder → List β
  new : List Char → Builder
  push : Builder → List Char → Builder
  pushValues : Builder → List (List β) → Option Builder
  sql_new : ∀ init, sql (new init) = init
  arguments_new : ∀ init, arguments (new init) = []
  sql_push : ∀ qb text, sql (push qb text) = sql qb ++ text
  arguments_push : ∀ qb text, arguments (push qb text) = arguments qb
  pushValues_cons : ∀ qb tuple tuples, ∃ qb', pushValues qb (tuple :: tuples) = some qb' ∧
    sql qb' = sql qb ++ "VALUES ".toList ++
      ", ".toList.intercalate (tupleTexts backend (arguments qb).length (tuple :: tuples)) ∧
    arguments qb' = arguments qb ++ (tuple :: tuples).flatten
  pushValues_nil : ∀ qb qb', pushValues qb [] = some qb' →
    sql qb' = sql qb ++ "VALUES ".toList ∧ arguments qb' = arguments qb

/-! ### Casts of sqlx -/

def isCastQuote (c : Char) : Bool := c = '\'' || c = '"' || c = '\x60'

def isIdentStart (c : Char) : Bool := c.isAlpha || c = '_'

def isIdentChar (c : Char) : Bool := c.isAlphanum || c = '_'

theorem isIdentChar_of_isIdentStart {c : Char} (h : isIdentStart c = true) :
    isIdentChar c = true := by
  simp only [isIdentStart, isIdentChar, Char.isAlphanum, Bool.or_eq_true] at h ⊢
  exact h.imp .inl id

def isTypeChar (c : Char) : Bool := isIdentChar c || "<>:, ".toList.contains c

/-- Up to ten blanks. -/
def skipBlanks (cs : List Char) : Option (List Char) :=
  if (cs.takeWhile isWhitespace).length ≤ 10 then some (cs.dropWhile isWhitespace) else none

def skipMark : List Char → Option (List Char)
  | c :: cs => if c = '!' ∨ c = '?' then some cs else none
  | [] => none

/-- A colon and a type, with blanks around the colon and perhaps a mark. -/
def skipType (cs : List Char) : Option (List Char) :=
  match skipBlanks cs with
  | some (':' :: cs) =>
      match skipBlanks cs with
      | some (c :: cs) =>
          if isIdentStart c ∧ (cs.takeWhile isTypeChar).length ≤ 99 then
            let rest := cs.dropWhile isTypeChar
            some ((skipMark rest).getD rest)
          else none
      | _ => none
  | _ => none

/-- What follows the name in a quoted cast: a mark, a type, or both. -/
def skipSuffix (cs : List Char) : Option (List Char) :=
  match skipMark cs with
  | some rest => some ((skipType rest).getD rest)
  | none => skipType cs

/-- The match of `SQLX_CAST_CLEANER` at the start of a text: the name in it
and the text behind it. -/
def castAt : List Char → Option (List Char × List Char)
  | quote :: c :: cs =>
      let name := c :: cs.takeWhile isIdentChar
      if isCastQuote quote ∧ isIdentStart c ∧ name.length ≤ 81 then
        match skipSuffix (cs.dropWhile isIdentChar) with
        | some (close :: rest) => if close = quote then some (name, rest) else none
        | _ => none
      else none
  | _ => none

/-- `skip` counts the characters of a match just replaced. -/
def cleanFrom : ℕ → List Char → List Char
  | _, [] => []
  | skip + 1, _ :: cs => cleanFrom skip cs
  | 0, c :: cs =>
      match castAt (c :: cs) with
      | some (name, rest) => name ++ cleanFrom (cs.length - rest.length) cs
      | none => c :: cleanFrom 0 cs

def cleanSqlxCastSyntaxForRuntime (sql : List Char) : List Char := cleanFrom 0 sql

/-! ### The generator -/

inductive FetchMethod
  | execute
  | fetchOne
  | fetchAll
  | fetchOptional
  | fetch
  deriving DecidableEq

inductive QueryType
  | queryAs
  | queryScalar
  | query
  deriving DecidableEq

/-- What the method returns for an empty list without asking the database. -/
inductive EmptyReturn
  | queryResult
  | vec
  | none
  deriving DecidableEq

structure GenerationContext where
  isGeneric : Bool
  fetchMethod : FetchMethod
  queryType : QueryType

/-- The check of the generated method; the outer `none` is no check. -/
def emptyReturn (context : GenerationContext) : Option EmptyReturn :=
  if context.isGeneric then
    none
  else
    match context.fetchMethod with
    | .execute => some .queryResult
    | .fetchAll =>
        match context.queryType with
        | .queryScalar | .queryAs => some .vec
        | _ => some .queryResult
    | .fetchOne => none
    | .fetchOptional => some .none
    | .fetch => some .queryResult

/-- The generated method. -/
structure MultiInsertCode where
  emptyReturn : Option EmptyReturn
  insertPart : List Char
  onConflict : Option (List Char)
  returning : Option (List Char)

def generateQueryBuilder {D : Display} (P : InsertDisplay D) (context : GenerationContext)
    (stmt : InsertStatement) : Except String MultiInsertCode :=
  if hasComplexSqlFunctionsInValues stmt then
    .error "SQL functions in VALUES clause not supported"
  else do
    let insertPart ← (extractInsertBaseFromStatement P stmt).mapError ParserError.display
    .ok
      { emptyReturn := emptyReturn context
        insertPart := insertPart
        onConflict := extractOnConflictClauseFromStatement P stmt
        returning := (extractReturningClauseFromStatement D stmt).map
          cleanSqlxCastSyntaxForRuntime }

inductive Outcome (Builder : Type)
  | returned (value : EmptyReturn)
  | issued (qb : Builder)
  | panicked

namespace MultiInsertCode

variable {backend : Backend} {β : Type} {n : ℕ} (code : MultiInsertCode)
  (sqlx : SqlxQueryBuilder backend β)

def pushOptional (qb : sqlx.Builder) (clause : Option (List Char)) : sqlx.Builder :=
  clause.elim qb (sqlx.push qb)

/-- The statement for a list of tuples of `n` components. -/
def build (tuples : List (Fin n → β)) : Option sqlx.Builder :=
  (sqlx.pushValues (sqlx.new code.insertPart) (tuples.map List.ofFn)).map fun qb =>
    pushOptional sqlx (pushOptional sqlx qb code.onConflict) code.returning

def run (tuples : List (Fin n → β)) : Outcome sqlx.Builder :=
  match code.emptyReturn, tuples with
  | some value, [] => .returned value
  | _, _ => (code.build sqlx tuples).elim .panicked .issued

end MultiInsertCode

end SqlxData.Macros
