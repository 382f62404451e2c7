import SqlxData.Sqlparser.Ast

/-!
The names in the conditions of a query. A server may look a name that is no
column up among the aliases of the projection, in WHERE and in the conditions
of FROM as well.
-/

namespace SqlxData.Count

open SqlxData.Sqlparser

/-- How a server reads names: those in a part that is kept as text, and which
spellings are one name. -/
structure Naming where
  namesIn : String → List Ident
  same : Ident → Ident → Bool

namespace Naming

variable (N : Naming)

mutual

/-- The names an expression is written with that could be an alias: a
qualified name is none. -/
def names : Expr → List Ident
  | .identifier ident => [ident]
  | .compoundIdentifier _ => []
  | .wildcard => []
  | .value _ => []
  | .binaryOp left _ right => names left ++ names right
  | .unaryOp _ e => names e
  | .nested e => names e
  | .isNull e => names e
  | .isNotNull e => names e
  | .inList e list _ => names e ++ namesOf list
  | .between e _ low high => names e ++ names low ++ names high
  | .like _ e pattern _ => names e ++ names pattern
  | .ilike _ e pattern _ => names e ++ names pattern
  | .function _ _ args «over» clauses =>
      namesOf args ++ «over».elim [] N.namesIn ++ namesOf clauses
  | .other form args => N.namesIn form ++ namesOf args

def namesOf : List Expr → List Ident
  | [] => []
  | e :: es => names e ++ namesOf es

end

end Naming

def itemAliases (items : List SelectItem) : List Ident :=
  items.filterMap fun item =>
    match item with
    | .exprWithAlias _ name => some name
    | _ => none

/-- No name in the expression is an alias of the projection. -/
def Naming.NamesNoAlias (N : Naming) (items : List SelectItem) (e : Expr) : Prop :=
  ∀ name ∈ N.names e, ∀ given ∈ itemAliases items, N.same name given = false

instance (N : Naming) (items : List SelectItem) (e : Expr) : Decidable (N.NamesNoAlias items e) :=
  inferInstanceAs (Decidable (∀ name ∈ N.names e, ∀ given ∈ itemAliases items, _))

/-- A projection without aliases is named by nothing. -/
theorem Naming.namesNoAlias_of_no_aliases (N : Naming) {items : List SelectItem}
    (h : itemAliases items = []) (e : Expr) : N.NamesNoAlias items e := by
  intro name _ given hgiven
  rw [h] at hgiven
  cases hgiven

/-! ### Conditions -/

/-- The condition of a join. -/
def onCondition : JoinConstraint → List Expr
  | .on e => [e]
  | _ => []

mutual

/-- The expressions a relation of FROM is evaluated with. -/
def factorConditions : TableFactor → List Expr
  | .table _ _ => []
  | .derived _ _ _ => []
  | .nestedJoin t _ => tableConditions t
  | .other form args => [.other form args]

def tableConditions : TableWithJoins → List Expr
  | ⟨relation, joins⟩ => factorConditions relation ++ joinsConditions joins

def joinsConditions : List Join → List Expr
  | [] => []
  | ⟨relation, op⟩ :: joins =>
      factorConditions relation ++ onCondition op.constraint ++ joinsConditions joins

end

/-- The conditions of FROM and WHERE. -/
def conditions (tables : List TableWithJoins) (selection : Option Expr) : List Expr :=
  tables.flatMap tableConditions ++ selection.toList

end SqlxData.Count
