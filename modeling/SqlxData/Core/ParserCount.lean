import SqlxData.Sqlparser.Display

/-!
`generate_count_query`: the count query of a statement. An analysis of the
query picks a strategy; the text is the query printed again with another
projection, inside a derived table, or both.
-/

namespace SqlxData.Core

open SqlxData.Sqlparser

inductive CountStrategy
  | simpleCount
  | countDistinct (exprs : List Expr)
  | subqueryCount

structure CountAnalysis where
  strategy : CountStrategy
  reason : String

/-- The derived default of `CountAnalysis`. -/
def CountAnalysis.default : CountAnalysis := ⟨.subqueryCount, ""⟩

/-! ### What the analysis looks at -/

def containsWindow : Expr → Bool
  | .function _ _ _ «over» _ => «over».isSome
  | .binaryOp left _ right => containsWindow left || containsWindow right
  | .nested e => containsWindow e
  | _ => false

def hasJoin (select : Select) : Bool := select.from.any fun t => !t.joins.isEmpty

def hasCte (query : Query) : Bool := query.with.isSome

def hasGroupBy (select : Select) : Bool :=
  match select.groupBy with
  | .all _ => false
  | .expressions exprs _ => !exprs.isEmpty

def hasHaving (select : Select) : Bool := select.having.isSome

def hasWindowFunctions (select : Select) : Bool :=
  select.projection.any fun item =>
    match item with
    | .unnamedExpr e => containsWindow e
    | .exprWithAlias e _ => containsWindow e
    | _ => false

def hasWithTies (select : Select) : Bool := select.top.any (·.withTies)

def isComplexSubquery (query : Query) : Bool :=
  match query.body with
  | .select select =>
      hasGroupBy select || hasHaving select || hasWindowFunctions select ||
        select.distinct.isSome || hasJoin select
  | _ => true

/-- Does a table factor hold a derived table whose query passes the test? -/
def derivedAnd (test : Query → Bool) : TableFactor → Bool
  | .derived _ subquery _ => test subquery
  | _ => false

/-- The two scans of FROM, over its relations and the relations joined to
them. -/
def anyDerived (test : Query → Bool) (select : Select) : Bool :=
  select.from.any fun t =>
    derivedAnd test t.relation || t.joins.any fun join => derivedAnd test join.relation

def hasSubqueryInFromOrJoin (select : Select) : Bool := anyDerived (fun _ => true) select

def hasComplexSubqueryInFromOrJoin (select : Select) : Bool := anyDerived isComplexSubquery select

def getProjectedExprRefs (select : Select) : List Expr :=
  select.projection.filterMap fun item =>
    match item with
    | .unnamedExpr e => some e
    | .exprWithAlias e _ => some e
    | .wildcard => none
    | .qualifiedWildcard _ => none

def isProjectionSafeForSimpleCount (select : Select) : Bool :=
  (match select.projection with
    | [.wildcard] => true
    | [.qualifiedWildcard _] => true
    | _ => false) ||
  select.projection.all fun item =>
    match item with
    | .unnamedExpr (.identifier _) => true
    | .exprWithAlias (.identifier _) _ => true
    | .unnamedExpr (.compoundIdentifier _) => true
    | .exprWithAlias (.compoundIdentifier _) _ => true
    | _ => false

/-! ### The strategy -/

def analyzeDistinct (select : Select) : CountAnalysis :=
  let exprs := getProjectedExprRefs select
  if exprs.isEmpty then
    ⟨.subqueryCount, "DISTINCT with wildcard or complex projection"⟩
  else
    ⟨.countDistinct exprs, "DISTINCT on one or more expressions"⟩

def analyzeQueryBody (query : Query) (primaryKey : Option String) : CountAnalysis :=
  match query.body with
  | .select select =>
      if hasWithTies select then
        ⟨.subqueryCount, "WITH TIES clause present"⟩
      else if hasCte query || hasGroupBy select || hasHaving select ||
          hasWindowFunctions select then
        ⟨.subqueryCount, "GROUP BY/HAVING/window functions present"⟩
      else if hasSubqueryInFromOrJoin select then
        ⟨.subqueryCount, "Subquery in FROM or JOIN"⟩
      else if select.distinct.isSome then
        analyzeDistinct select
      else if hasJoin select then
        match primaryKey with
        | none => ⟨.subqueryCount, "JOIN without primary key information"⟩
        | some pk =>
            ⟨.countDistinct [.identifier (.new pk)], "JOIN with known primary key"⟩
      else if isProjectionSafeForSimpleCount select then
        ⟨.simpleCount, "Simple COUNT(*) safe"⟩
      else
        -- The subquery the comment of this branch asks for is commented out.
        ⟨.simpleCount, "Projection affects result cardinality"⟩
  | _ => ⟨.subqueryCount, "Set operation (UNION/INTERSECT/EXCEPT)"⟩

def analyzeQuery (statement : Statement) (primaryKey : Option String) : CountAnalysis :=
  match statement with
  | .query query => analyzeQueryBody query primaryKey
  | .other _ => .default

/-! ### The text -/

def countExpr (maybeExpr : Option Expr) (duplicateTreatment : Option DuplicateTreatment) : Expr :=
  .function [.new "COUNT"] duplicateTreatment
    (match maybeExpr with
      | none => [.wildcard]
      | some expr => [expr])
    none []

/-- `format!("SELECT COUNT(*) FROM ({}) AS sub", query)`. -/
def countWrapper (D : Display) (query : Query) : List Char :=
  "SELECT COUNT(*) FROM (".toList ++ render (D.query query) ++ ") AS sub".toList

/-- `format!("{} {}", with_clause, sql_body)`, or the body alone. -/
def prependWith (D : Display) (withClause : Option With) (sqlBody : List Char) : List Char :=
  match withClause with
  | some w => render (D.with w) ++ ' ' :: sqlBody
  | none => sqlBody

/-- The query without what has no influence on a count, and without its WITH
clause, which is kept aside. -/
def Query.forCount (query : Query) : Query :=
  { query with orderBy := none, limitClause := none, fetch := none, «with» := none }

def canOptimizeToSelect1 (select : Select) : Bool :=
  select.distinct.isNone && !hasGroupBy select && !hasHaving select &&
    !hasWindowFunctions select && !hasComplexSubqueryInFromOrJoin select

def generateCountQuery (D : Display) (statement : Statement) (primaryKey : Option String) :
    List Char :=
  match statement with
  | .other form => render (D.other form)
  | .query original =>
      let analysis := analyzeQuery statement primaryKey
      let query := Query.forCount original
      let withClause := original.with
      match query.body with
      | .select select =>
          match analysis.strategy with
          | .simpleCount =>
              prependWith D withClause (render (D.query { query with
                body := .select { select with
                  projection := [.unnamedExpr (countExpr none none)] } }))
          | .countDistinct [expr] =>
              -- The only path that does not put the WITH clause back.
              render (D.query { query with
                body := .select { select with
                  distinct := none
                  projection := [.unnamedExpr (countExpr (some expr) (some .distinct))] } })
          | .countDistinct _ => prependWith D withClause (countWrapper D query)
          | .subqueryCount =>
              prependWith D withClause (countWrapper D
                (if canOptimizeToSelect1 select then
                  { query with
                    body := .select { select with
                      projection := [.unnamedExpr (.identifier (.new "1"))] } }
                else query))
      | _ =>
          match analysis.strategy with
          | .subqueryCount => prependWith D withClause (countWrapper D query)
          | _ => render (D.query query)

end SqlxData.Core
