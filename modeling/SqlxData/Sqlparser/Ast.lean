import SqlxData.Params.Filter

/-!
The part of the `sqlparser` syntax tree the program builds or looks into.
Constructors and fields carry the crate's names. A node no modelled function
looks into is an `other` constructor with its text and the expressions inside
it; clauses no modelled function looks into are the list `rest`, written the
same way.
-/

namespace SqlxData.Sqlparser

open SqlxData

/-- Where a placeholder comes from: the argument of the method it reads, or
the value that was pushed when it was generated. This is a mark for the
specification; no function looks at it and it is not printed. -/
inductive Origin
  | argument (index : ℕ)
  | pushed (value : FilterValue)
  deriving DecidableEq

structure Ident where
  value : String
  quoteStyle : Option Char
  deriving DecidableEq

def Ident.new (value : String) : Ident := ⟨value, none⟩

inductive Value
  | number (text : String) (long : Bool)
  | singleQuotedString (s : String)
  | boolean (b : Bool)
  | null
  | placeholder (text : String) (origin : Origin)
  deriving DecidableEq

inductive BinaryOperator
  | eq
  | notEq
  | gt
  | lt
  | gtEq
  | ltEq
  | and
  | or
  | other (symbol : String)
  deriving DecidableEq

inductive UnaryOperator
  | not
  | other (symbol : String)
  deriving DecidableEq

inductive DuplicateTreatment
  | distinct
  | all
  deriving DecidableEq

inductive Expr
  | identifier (ident : Ident)
  | compoundIdentifier (idents : List Ident)
  | wildcard
  | value (value : Value)
  | binaryOp (left : Expr) (op : BinaryOperator) (right : Expr)
  | unaryOp (op : UnaryOperator) (expr : Expr)
  | nested (expr : Expr)
  | isNull (expr : Expr)
  | isNotNull (expr : Expr)
  | inList (expr : Expr) (list : List Expr) (negated : Bool)
  | between (expr : Expr) (negated : Bool) (low high : Expr)
  | like (negated : Bool) (expr pattern : Expr) (escapeChar : Option Value)
  | ilike (negated : Bool) (expr pattern : Expr) (escapeChar : Option Value)
  /-- A function call; `over` is its window, if it has one, and `clauses` are
  the expressions of the window and of the other clauses behind the call. -/
  | function (name : List Ident) (duplicateTreatment : Option DuplicateTreatment)
      (args : List Expr) («over» : Option String) (clauses : List Expr)
  | other (form : String) (args : List Expr)
  deriving Inhabited

inductive Distinct
  | all
  | distinct
  | on (exprs : List Expr)

structure Top where
  withTies : Bool
  quantity : Option Expr

inductive SelectItem
  | unnamedExpr (expr : Expr)
  | exprWithAlias (expr : Expr) (name : Ident)
  | qualifiedWildcard (name : List Ident)
  | wildcard

inductive GroupByExpr
  | all (modifiers : List Expr)
  | expressions (exprs : List Expr) (modifiers : List Expr)

structure OrderByOptions where
  asc : Option Bool
  nullsFirst : Option Bool
  deriving DecidableEq

structure OrderByExpr where
  expr : Expr
  options : OrderByOptions
  withFill : Option Expr

inductive OrderByKind
  | expressions (exprs : List OrderByExpr)
  | all (options : OrderByOptions)

structure OrderBy where
  kind : OrderByKind
  interpolate : Option Expr

inductive OffsetRows
  | none
  | row
  | rows
  deriving DecidableEq

structure Offset where
  value : Expr
  rows : OffsetRows

inductive LimitClause
  | limitOffset (limit : Option Expr) (offset : Option Offset) (limitBy : List Expr)
  | offsetCommaLimit (offset limit : Expr)

inductive JoinConstraint
  | on (expr : Expr)
  | using (columns : List Ident)
  | natural
  | none

inductive JoinKind
  | join
  | inner
  | left
  | leftOuter
  | right
  | rightOuter
  | fullOuter
  | cross
  | other (kind : String)
  deriving DecidableEq

structure JoinOperator where
  kind : JoinKind
  constraint : JoinConstraint

inductive SetOperator
  | union
  | intersect
  | except
  deriving DecidableEq

inductive SetQuantifier
  | all
  | distinct
  | none
  deriving DecidableEq

mutual

inductive TableFactor
  | table (name : List Ident) (tableAlias : Option Ident)
  | derived (lateral : Bool) (subquery : Query) (tableAlias : Option Ident)
  | nestedJoin (tableWithJoins : TableWithJoins) (tableAlias : Option Ident)
  | other (form : String) (args : List Expr)

structure Join where
  relation : TableFactor
  joinOperator : JoinOperator

structure TableWithJoins where
  relation : TableFactor
  joins : List Join

structure Select where
  distinct : Option Distinct
  top : Option Top
  projection : List SelectItem
  «from» : List TableWithJoins
  selection : Option Expr
  groupBy : GroupByExpr
  having : Option Expr
  namedWindow : List Expr
  rest : List Expr

inductive SetExpr
  | select (select : Select)
  | query (query : Query)
  | setOperation (op : SetOperator) (setQuantifier : SetQuantifier) (left right : SetExpr)
  | values (rows : List (List Expr))
  | table (name : String)
  | other (form : String) (args : List Expr)

structure Cte where
  name : Ident
  query : Query

structure With where
  recursive : Bool
  cteTables : List Cte

structure Query where
  «with» : Option With
  body : SetExpr
  orderBy : Option OrderBy
  limitClause : Option LimitClause
  fetch : Option Expr
  rest : List Expr

end

inductive Statement
  | query (query : Query)
  | other (form : String)

end SqlxData.Sqlparser
