import SqlxData.Lib.BoolText
import SqlxData.Lib.NumberedText
import SqlxData.Sqlparser.Ast

/-!
Printing of the syntax tree. `sqlparser` prints a statement as one line of
text with no parentheses but the `Nested` nodes; `Display` is that printer as
far as the program relies on it. A printed statement is a list of tokens: words
carry their blanks, so the text is their concatenation, and placeholders are
tokens of their own.
-/

namespace SqlxData.Sqlparser

open BoolText NumberedText

/-! ### Tokens -/

inductive Tok
  | word (s : String)
  | placeholder (text : String) (origin : Origin)
  deriving DecidableEq

def Tok.text : Tok → List Char
  | .word s => s.toList
  | .placeholder text _ => text.toList

@[simp] theorem Tok.text_word (s : String) : (Tok.word s).text = s.toList := rfl

@[simp] theorem Tok.text_placeholder (text : String) (origin : Origin) :
    (Tok.placeholder text origin).text = text.toList := rfl

def render (ts : List Tok) : List Char := ts.flatMap Tok.text

/-- A placeholder of a printed statement. -/
structure Mark where
  text : String
  origin : Origin
  deriving DecidableEq

def Tok.mark : Tok → Option Mark
  | .word _ => none
  | .placeholder text origin => some ⟨text, origin⟩

/-- The placeholders of a printed statement from left to right. -/
def marks (ts : List Tok) : List Mark := ts.filterMap Tok.mark

@[simp] theorem render_nil : render [] = [] := rfl

@[simp] theorem render_cons (t : Tok) (ts : List Tok) : render (t :: ts) = t.text ++ render ts := rfl

@[simp] theorem render_append (ts us : List Tok) : render (ts ++ us) = render ts ++ render us := by
  simp [render]

@[simp] theorem marks_nil : marks [] = [] := rfl

@[simp] theorem marks_word (s : String) (ts : List Tok) : marks (.word s :: ts) = marks ts := rfl

@[simp] theorem marks_placeholder (text : String) (origin : Origin) (ts : List Tok) :
    marks (.placeholder text origin :: ts) = ⟨text, origin⟩ :: marks ts := rfl

@[simp] theorem marks_append (ts us : List Tok) : marks (ts ++ us) = marks ts ++ marks us := by
  simp [marks]

/-- No token that ends inside a number or behind a `$` runs into a digit of
the next one. -/
def Separated : List Tok → Prop
  | [] => True
  | t :: ts => (OpenEnd t.text → ¬StartsWithDigit (render ts)) ∧ Separated ts

instance decidableSeparated : (ts : List Tok) → Decidable (Separated ts)
  | [] => isTrue trivial
  | _ :: ts =>
      let _ := decidableSeparated ts
      inferInstanceAs (Decidable (_ ∧ Separated ts))

def commaSep : List (List Tok) → List Tok
  | [] => []
  | part :: parts => part ++ parts.flatMap (.word ", " :: ·)

/-! ### The printer -/

def BinaryOperator.symbol : BinaryOperator → String
  | .eq => "="
  | .notEq => "<>"
  | .gt => ">"
  | .lt => "<"
  | .gtEq => ">="
  | .ltEq => "<="
  | .and => "AND"
  | .or => "OR"
  | .other symbol => symbol

def DuplicateTreatment.text : Option DuplicateTreatment → String
  | none => ""
  | some .distinct => "DISTINCT "
  | some .all => "ALL "

def OrderByOptions.text (o : OrderByOptions) : String :=
  (match o.asc with
    | none => ""
    | some true => " ASC"
    | some false => " DESC") ++
  match o.nullsFirst with
    | none => ""
    | some true => " NULLS FIRST"
    | some false => " NULLS LAST"

/-- The printer of `sqlparser`: its parts and the documented form of the
nodes the program builds. Clauses bring the blank in front of them along. -/
structure Display where
  ident : Ident → String
  expr : Expr → List Tok
  escape : Option Value → List Tok
  quantifier : Option Distinct → Option Top → List Tok
  projection : List SelectItem → List Tok
  «from» : List TableWithJoins → List Tok
  groupBy : GroupByExpr → List Tok
  selectRest : List Expr → List Expr → List Tok
  setOperator : SetOperator → SetQuantifier → String
  setExpr : SetExpr → List Tok
  «with» : With → List Tok
  orderBy : Option OrderBy → List Tok
  limitClause : Option LimitClause → List Tok
  fetch : Option Expr → List Tok
  queryRest : List Expr → List Tok
  query : Query → List Tok
  other : String → List Tok
  ident_new : ∀ s, ident (.new s) = s
  expr_identifier : ∀ i, expr (.identifier i) = [.word (ident i)]
  expr_wildcard : expr .wildcard = [.word "*"]
  expr_placeholder : ∀ text origin,
    expr (.value (.placeholder text origin)) = [.placeholder text origin]
  expr_number : ∀ text, expr (.value (.number text false)) = [.word text]
  expr_binaryOp : ∀ l op r,
    expr (.binaryOp l op r) = expr l ++ .word (" " ++ op.symbol ++ " ") :: expr r
  expr_not : ∀ e, expr (.unaryOp .not e) = .word "NOT " :: expr e
  expr_nested : ∀ e, expr (.nested e) = .word "(" :: expr e ++ [.word ")"]
  expr_isNull : ∀ e, expr (.isNull e) = expr e ++ [.word " IS NULL"]
  expr_isNotNull : ∀ e, expr (.isNotNull e) = expr e ++ [.word " IS NOT NULL"]
  expr_inList : ∀ e list negated,
    expr (.inList e list negated) =
      expr e ++ .word (if negated then " NOT IN (" else " IN (") ::
        commaSep (list.map expr) ++ [.word ")"]
  expr_between : ∀ e negated low high,
    expr (.between e negated low high) =
      expr e ++ .word (if negated then " NOT BETWEEN " else " BETWEEN ") ::
        expr low ++ .word " AND " :: expr high
  expr_like : ∀ negated e pattern escapeChar,
    expr (.like negated e pattern escapeChar) =
      expr e ++ .word (if negated then " NOT LIKE " else " LIKE ") ::
        expr pattern ++ escape escapeChar
  expr_ilike : ∀ negated e pattern escapeChar,
    expr (.ilike negated e pattern escapeChar) =
      expr e ++ .word (if negated then " NOT ILIKE " else " ILIKE ") ::
        expr pattern ++ escape escapeChar
  expr_call : ∀ name treatment args,
    expr (.function [name] treatment args none []) =
      .word (ident name ++ "(" ++ DuplicateTreatment.text treatment) ::
        commaSep (args.map expr) ++ [.word ")"]
  escape_none : escape none = []
  escape_backslash : escape (some (.singleQuotedString "\\")) = [.word " ESCAPE '\\'"]
  quantifier_none : quantifier none none = []
  projection_unnamed : ∀ e, projection [.unnamedExpr e] = expr e
  from_derived : ∀ q name,
    «from» [⟨.derived false q (some name), []⟩] =
      .word " FROM " :: .word "(" :: query q ++ [.word ")", .word (" AS " ++ ident name)]
  groupBy_none : groupBy (.expressions [] []) = []
  selectRest_none : selectRest [] [] = []
  setExpr_select : ∀ s,
    setExpr (.select s) =
      .word "SELECT " :: quantifier s.distinct s.top ++ projection s.projection ++
        «from» s.from ++ (s.selection.elim [] fun e => .word " WHERE " :: expr e) ++
        groupBy s.groupBy ++ (s.having.elim [] fun e => .word " HAVING " :: expr e) ++
        selectRest s.namedWindow s.rest
  setExpr_query : ∀ q, setExpr (.query q) = .word "(" :: query q ++ [.word ")"]
  setExpr_setOperation : ∀ op quantifier l r,
    setExpr (.setOperation op quantifier l r) =
      setExpr l ++ .word (setOperator op quantifier) :: setExpr r
  orderBy_none : orderBy none = []
  orderBy_expressions : ∀ es : List (Expr × OrderByOptions),
    orderBy (some ⟨.expressions (es.map fun e => ⟨e.1, e.2, none⟩), none⟩) =
      .word " ORDER BY " :: commaSep (es.map fun e => expr e.1 ++ [.word e.2.text])
  limitClause_none : limitClause none = []
  limitClause_limitOffset : ∀ limit offset limitBy,
    ∃ rest, limitClause (some (.limitOffset limit offset limitBy)) =
      (limit.elim [] fun e => .word " LIMIT " :: expr e) ++
        (offset.elim [] fun o => .word " OFFSET " :: expr o.value) ++ rest ∧
      (limitBy = [] ∧ (∀ o ∈ offset, o.rows = .none) → rest = [])
  limitClause_offsetCommaLimit : ∀ offset limit,
    limitClause (some (.offsetCommaLimit offset limit)) =
      .word " LIMIT " :: expr offset ++ .word ", " :: expr limit
  fetch_none : fetch none = []
  queryRest_none : queryRest [] = []
  query_eq : ∀ q,
    query q =
      (q.with.elim [] fun w => «with» w ++ [.word " "]) ++ setExpr q.body ++
        orderBy q.orderBy ++ limitClause q.limitClause ++ fetch q.fetch ++ queryRest q.rest
  separated : ∀ q, Separated (query q)

def Display.statement (D : Display) : Statement → List Tok
  | .query q => D.query q
  | .other form => D.other form

/-! ### Boolean conditions -/

/-- The boolean skeleton of a condition: its operators and parentheses down to
the operands that are no AND, OR, NOT or parenthesis. -/
def Expr.skeleton : Expr → Formula Expr
  | .binaryOp l op r =>
      match op with
      | .and => .and l.skeleton r.skeleton
      | .or => .or l.skeleton r.skeleton
      | op => .operand (.binaryOp l op r)
  | .unaryOp op e =>
      match op with
      | .not => .not e.skeleton
      | op => .operand (.unaryOp op e)
  | .nested e => .paren e.skeleton
  | e => .operand e

/-- How the tokens of a condition are written. -/
def Display.spell (D : Display) : Token Expr → List Tok
  | .operand e => D.expr e
  | .not => [.word "NOT "]
  | .and => [.word " AND "]
  | .or => [.word " OR "]
  | .lparen => [.word "("]
  | .rparen => [.word ")"]

theorem Display.spell_print_operand (D : Display) (e : Expr) :
    ((Formula.operand e).print).flatMap D.spell = D.expr e := by
  simp [Formula.print, Display.spell]

/-- A condition is printed as the text of its skeleton. -/
theorem Display.expr_eq_spell (D : Display) (e : Expr) :
    D.expr e = e.skeleton.print.flatMap D.spell := by
  fun_induction Expr.skeleton e with
  | case1 l r ihl ihr =>
      rw [D.expr_binaryOp, ihl, ihr]
      simp [Formula.print, Display.spell, BinaryOperator.symbol]
  | case2 l r ihl ihr =>
      rw [D.expr_binaryOp, ihl, ihr]
      simp [Formula.print, Display.spell, BinaryOperator.symbol]
  | case4 e ih =>
      rw [D.expr_not, ih]
      simp [Formula.print, Display.spell]
  | case6 e ih =>
      rw [D.expr_nested, ih]
      simp [Formula.print, Display.spell]
  | case3 => exact (D.spell_print_operand _).symm
  | case5 => exact (D.spell_print_operand _).symm
  | case7 => exact (D.spell_print_operand _).symm

end SqlxData.Sqlparser
