import SqlxData.Core.Parser
import SqlxData.Sqlparser.Display

/-!
The INSERT statement, what is known of its printer, and the extractors that
take it apart: the part in front of the rows, the conflict clause and the
RETURNING list.
-/

namespace SqlxData.Core

open SqlxData.Sqlparser

/-! ### The statement -/

/-- ON CONFLICT or ON DUPLICATE KEY UPDATE, with the expressions in it. -/
structure OnInsert where
  form : String
  args : List Expr

/-- `rest` is everything else, from the table on. -/
structure Insert where
  columns : List Ident
  source : Option Query
  assignments : List Expr
  formatClause : Option String
  insertAlias : Option Ident
  on : Option OnInsert
  returning : Option (List SelectItem)
  rest : List Expr

inductive InsertStatement
  | insert (insert : Insert)
  | other (statement : Statement)

/-- The query `VALUES …` with nothing around it. -/
def valuesQuery (rows : List (List Expr)) : Query := ⟨none, .values rows, none, none, none, []⟩

/-- The statement without its source, conflict clause and RETURNING list. -/
def Insert.clean (i : Insert) : Insert := { i with source := none, on := none, returning := none }

/-! ### The printer -/

section Printer

variable (D : Display)

def rowText (row : List Expr) : List Tok := .word "(" :: commaSep (row.map D.expr) ++ [.word ")"]

def returningText (items : List SelectItem) : List Tok := .word " RETURNING " :: D.projection items

/-- The printer of `sqlparser` for an INSERT and its conflict clause: behind a
column list come the rows, the conflict clause and the RETURNING list. -/
structure InsertDisplay where
  insert : Insert → List Tok
  onInsert : OnInsert → List Tok
  insert_values : ∀ (i : Insert) (rows : List (List Expr)), i.columns ≠ [] → i.assignments = [] →
    i.formatClause = none → i.insertAlias = none → rows ≠ [] →
      insert { i with source := some (valuesQuery rows) } =
        insert i.clean ++ .word "VALUES " :: commaSep (rows.map (rowText D)) ++
          i.on.elim [] onInsert ++ i.returning.elim [] (returningText D)

end Printer

/-! ### The extractors -/

section Extractors

variable {D : Display} (P : InsertDisplay D)

def extractInsertBaseFromStatement : InsertStatement → Except ParserError (List Char)
  | .insert insert => .ok (render (P.insert insert.clean))
  | .other _ => .error (.validation "Expected INSERT statement for multi-insert operation")

def extractReturningClauseFromStatement (D : Display) : InsertStatement → Option (List Char)
  | .insert insert => insert.returning.map fun items => render (returningText D items)
  | .other _ => none

def extractOnConflictClauseFromStatement : InsertStatement → Option (List Char)
  | .insert insert => insert.on.map fun clause => render (P.onInsert clause)
  | .other _ => none

end Extractors

def isSimplePlaceholder : Expr → Bool
  | .value (.placeholder _ _) => true
  | _ => false

def hasComplexSqlFunctionsInValues : InsertStatement → Bool
  | .insert insert =>
      match insert.source with
      | some ⟨_, .values rows, _, _, _, _⟩ =>
          rows.any fun row => row.any fun e => !isSimplePlaceholder e
      | _ => false
  | .other _ => false

end SqlxData.Core
