import SqlxData.Core.Parser
import SqlxData.Sqlparser.Display

/-!
Scopes of a repository trait: conditions, columns, tables and orders that are
added to the SQL of every method that does not ignore them. The scopes are kept
in a map without an order of its own; `Iteration` is one order in which it may
be gone through.
-/

namespace SqlxData.Macros

open SqlxData.Sqlparser SqlxData.Core

inductive ScopeTarget
  | select
  | «from»
  | join
  | where
  | groupBy
  | having
  | orderBy
  deriving DecidableEq, Repr

structure ScopeDefinition where
  name : String
  sql : String
  target : ScopeTarget
  deriving DecidableEq

/-- A scope has one definition under its name. -/
structure ScopeManager where
  scopes : List ScopeDefinition
  ignoredScopes : List String
  nodup : (scopes.map ScopeDefinition.name).Nodup

namespace ScopeManager

def new : ScopeManager := ⟨[], [], List.nodup_nil⟩

/-- A later definition replaces an earlier one of the same name. -/
def addScope (m : ScopeManager) (scopeName sql : String) (target : ScopeTarget) : ScopeManager where
  scopes := m.scopes.filter (·.name ≠ scopeName) ++ [⟨scopeName, sql, target⟩]
  ignoredScopes := m.ignoredScopes
  nodup := by
    rw [List.map_append, List.nodup_append]
    refine ⟨m.nodup.sublist (List.filter_sublist.map _), by simp, ?_⟩
    rintro a ha b hb rfl
    obtain ⟨d, hd, rfl⟩ := List.mem_map.mp ha
    simp at hb
    simp [hb] at hd

def addIgnoredScope (m : ScopeManager) (scopeName : String) : ScopeManager :=
  { m with ignoredScopes := m.ignoredScopes ++ [scopeName] }

def getActiveScopes (m : ScopeManager) : List ScopeDefinition :=
  m.scopes.filter (·.name ∉ m.ignoredScopes)

def hasActiveScopes (m : ScopeManager) : Bool := !m.getActiveScopes.isEmpty

/-- One order of the active scopes. -/
structure Iteration (m : ScopeManager) where
  order : List ScopeDefinition
  perm : order.Perm m.getActiveScopes

def getScopesByTarget {m : ScopeManager} (it : m.Iteration) (target : ScopeTarget) :
    List ScopeDefinition :=
  it.order.filter (·.target = target)

end ScopeManager

/-! ### Parsing of scope texts -/

structure SynError where
  msg : String
  deriving DecidableEq

def synError (msg : String) : SynError := ⟨msg⟩

def coreError (err : ParserError) : SynError := synError err.display

def sqlParseError : SynError := synError "Failed to parse SQL"

section Parse

variable (parser : Parser)

/-- The text has to be a query. -/
def parseQuery (sql : List Char) (notQuery : String) : Except SynError Query := do
  let statementOpt ← (parseSql parser sql).mapError coreError
  match statementOpt with
  | none => .error sqlParseError
  | some (.query query) => .ok query
  | some (.other _) => .error (synError notQuery)

/-- The text has to be a query whose body is one SELECT. -/
def parseSelect (sql : List Char) (notQuery notSelect : String) : Except SynError Select := do
  let query ← parseQuery parser sql notQuery
  match query.body with
  | .select select => .ok select
  | _ => .error (synError notSelect)

def dummyText (start : String) (scope : ScopeDefinition) : List Char :=
  (start ++ scope.sql).toList

/-- A scope of a WHERE or HAVING: the condition the parser finds behind the
keyword. -/
def parseCondition (start clause : String) (conditionOf : Select → Option Expr)
    (scope : ScopeDefinition) : Except SynError Expr := do
  let select ← parseSelect parser (dummyText start scope)
    ("Scope '" ++ scope.name ++ "' is not a valid SELECT query")
    ("Scope '" ++ scope.name ++ "' is not a SELECT expression")
  match conditionOf select with
  | some condition => .ok condition
  | none =>
      .error (synError ("Scope '" ++ scope.name ++ "' produced no " ++ clause ++ " condition"))

def buildWhereConditions (whereScopes : List ScopeDefinition) : Except SynError (List Expr) :=
  whereScopes.mapM (parseCondition parser "SELECT 1 WHERE " "WHERE" Select.selection)

def buildHavingConditions (havingScopes : List ScopeDefinition) : Except SynError (List Expr) :=
  havingScopes.mapM (parseCondition parser "SELECT 1 HAVING " "HAVING" Select.having)

/-- The conditions joined by AND, the existing one in front. -/
def combineWhereConditions (existingWhere : Option Expr) :
    List Expr → Except SynError Expr
  | [] =>
      match existingWhere with
      | some existing => .ok existing
      | none => .error (synError "No conditions to combine")
  | condition :: conditions =>
      let combined := conditions.foldl (.binaryOp · .and ·) condition
      match existingWhere with
      | some existing => .ok (.binaryOp existing .and combined)
      | none => .ok combined

def parseScopeAsSelectItem (scope : ScopeDefinition) : Except SynError SelectItem := do
  let select ← parseSelect parser (dummyText "SELECT " scope)
    ("Invalid SELECT scope SQL (not a query): " ++ scope.sql)
    ("Invalid SELECT scope SQL (not a SELECT expr): " ++ scope.sql)
  match select.projection.head? with
  | some item => .ok item
  | none => .error (synError ("Invalid SELECT scope SQL (no projection): " ++ scope.sql))

/-- The ORDER BY items of a scope; anything but a list of expressions adds
none. -/
def orderByExpressionsOf (scope : ScopeDefinition) : Except SynError (List OrderByExpr) := do
  let query ← parseQuery parser (dummyText "SELECT 1 ORDER BY " scope)
    ("Invalid ORDER BY scope (not a query): " ++ scope.sql)
  match query.orderBy with
  | some ⟨.expressions exprs, _⟩ => .ok exprs
  | _ => .ok []

def buildOrderByExpressions (orderScopes : List ScopeDefinition) :
    Except SynError (List OrderByExpr) := do
  let exprs ← orderScopes.mapM (orderByExpressionsOf parser)
  .ok exprs.flatten

/-! ### Application -/

/-- Add conditions to a WHERE or HAVING that may be there already. -/
def addConditions (existing : Option Expr) (conditions : List Expr) :
    Except SynError (Option Expr) :=
  if conditions.isEmpty then .ok existing
  else do
    let combined ← combineWhereConditions existing conditions
    .ok (some combined)

def addOrderBy (existing : Option OrderBy) (exprs : List OrderByExpr) : Option OrderBy :=
  if exprs.isEmpty then existing
  else
    match existing with
    | some ⟨.expressions old, interpolate⟩ => some ⟨.expressions (old ++ exprs), interpolate⟩
    -- ORDER BY ALL gives way to the scopes
    | some ⟨.all _, interpolate⟩ => some ⟨.expressions exprs, interpolate⟩
    | none => some ⟨.expressions exprs, none⟩

def addFrom (tables : List TableWithJoins) (scope : ScopeDefinition) :
    Except SynError (List TableWithJoins) := do
  let parsed ← parseSelect parser (dummyText "SELECT * FROM " scope)
    ("Invalid FROM scope (not a query): " ++ scope.sql)
    ("Invalid FROM scope (not a SELECT expr): " ++ scope.sql)
  .ok (tables ++ parsed.from)

/-- The joins of the scope go to the last table. -/
def appendJoins : List TableWithJoins → TableWithJoins → List TableWithJoins
  -- nothing to join to: the dummy table comes along
  | [], parsed => [parsed]
  | [⟨relation, joins⟩], parsed => [⟨relation, joins ++ parsed.joins⟩]
  | table :: tables, parsed => table :: appendJoins tables parsed

def addJoin (tables : List TableWithJoins) (scope : ScopeDefinition) :
    Except SynError (List TableWithJoins) := do
  let parsed ← parseSelect parser (dummyText "SELECT * FROM __dummy__ " scope)
    ("Invalid JOIN scope (not a query): " ++ scope.sql)
    ("Invalid JOIN scope (not a SELECT expr): " ++ scope.sql)
  match parsed.from.head? with
  | some table => .ok (appendJoins tables table)
  | none => .ok tables

def addGroupBy (groupBy : GroupByExpr) (scope : ScopeDefinition) :
    Except SynError GroupByExpr := do
  let parsed ← parseSelect parser (dummyText "SELECT * GROUP BY " scope)
    ("Invalid GROUP BY scope (not a query): " ++ scope.sql)
    ("Invalid GROUP BY scope (not a SELECT expr): " ++ scope.sql)
  match parsed.groupBy, groupBy with
  | .expressions exprs modifiers, .expressions destExprs destModifiers =>
      .ok (.expressions (destExprs ++ exprs) (destModifiers ++ modifiers))
  | .expressions exprs modifiers, _ => .ok (.expressions exprs modifiers)
  | .all modifiers, .all destModifiers => .ok (.all (destModifiers ++ modifiers))
  | .all modifiers, _ => .ok (.all modifiers)

/-- The query with all active scopes in it. -/
def applyScopesToQuery {m : ScopeManager} (it : m.Iteration) (query : Query) (select : Select) :
    Except SynError Query := do
  let scopes := ScopeManager.getScopesByTarget it
  let whereConditions ← buildWhereConditions parser (scopes .where)
  let selection ← addConditions select.selection whereConditions
  let items ← (scopes .select).mapM (parseScopeAsSelectItem parser)
  let orderExprs ← buildOrderByExpressions parser (scopes .orderBy)
  let tables ← (scopes .from).foldlM (addFrom parser) select.from
  let tables ← (scopes .join).foldlM (addJoin parser) tables
  let groupBy ← (scopes .groupBy).foldlM (addGroupBy parser) select.groupBy
  let havingConditions ← buildHavingConditions parser (scopes .having)
  let having ← addConditions select.having havingConditions
  let extended : Select :=
    { select with
      projection := select.projection ++ items
      «from» := tables
      selection := selection
      groupBy := groupBy
      having := having }
  .ok { query with body := .select extended, orderBy := addOrderBy query.orderBy orderExprs }

def applyScopesToSql (D : Display) (m : ScopeManager) (it : m.Iteration) (sql : List Char) :
    Except SynError (List Char) :=
  if !m.hasActiveScopes then .ok sql
  else do
    let query ← parseQuery parser sql "Only SELECT queries support scope application"
    match query.body with
    | .select select => do
        let query ← applyScopesToQuery parser it query select
        .ok (render (D.query query))
    | _ => .error (synError "Only SELECT queries support scope application")

end Parse

end SqlxData.Macros
