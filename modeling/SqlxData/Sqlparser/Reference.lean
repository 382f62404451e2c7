import SqlxData.Core.Parser
import SqlxData.Sqlparser.Display

/-!
A printer that satisfies `Display`: the layout of `sqlparser` for the nodes
that occur in the examples, and some layout for the others.
-/

namespace SqlxData.Sqlparser.Reference

open NumberedText

/-! ### Leaves -/

def ident (i : Ident) : String :=
  match i.quoteStyle with
  | none => i.value
  | some quote => quote.toString ++ i.value ++ quote.toString

def dotted (name : List Ident) : String := ".".intercalate (name.map ident)

def value : Value → Tok
  | .number text long => .word (if long then text ++ "L" else text)
  | .singleQuotedString s => .word ("'" ++ s ++ "'")
  | .boolean b => .word (if b then "true" else "false")
  | .null => .word "NULL"
  | .placeholder text origin => .placeholder text origin

def escape : Option Value → List Tok
  | none => []
  | some (.singleQuotedString s) => [.word (" ESCAPE '" ++ s ++ "'")]
  | some v => [.word " ESCAPE ", value v]

/-! ### Expressions -/

mutual

def expr : Expr → List Tok
  | .identifier i => [.word (ident i)]
  | .compoundIdentifier is => [.word (dotted is)]
  | .wildcard => [.word "*"]
  | .value v => [value v]
  | .binaryOp l op r => expr l ++ .word (" " ++ op.symbol ++ " ") :: expr r
  | .unaryOp op e =>
      (match op with
        | .not => .word "NOT "
        | .other symbol => .word (symbol ++ " ")) :: expr e
  | .nested e => .word "(" :: expr e ++ [.word ")"]
  | .isNull e => expr e ++ [.word " IS NULL"]
  | .isNotNull e => expr e ++ [.word " IS NOT NULL"]
  | .inList e list negated =>
      expr e ++ .word (if negated then " NOT IN (" else " IN (") :: exprs list ++ [.word ")"]
  | .between e negated low high =>
      expr e ++ .word (if negated then " NOT BETWEEN " else " BETWEEN ") ::
        expr low ++ .word " AND " :: expr high
  | .like negated e pattern escapeChar =>
      expr e ++ .word (if negated then " NOT LIKE " else " LIKE ") ::
        expr pattern ++ escape escapeChar
  | .ilike negated e pattern escapeChar =>
      expr e ++ .word (if negated then " NOT ILIKE " else " ILIKE ") ::
        expr pattern ++ escape escapeChar
  | .function name treatment args «over» clauses =>
      .word (dotted name ++ "(" ++ DuplicateTreatment.text treatment) ::
        exprs args ++ .word ")" ::
          ((«over».elim [] fun window => [.word (" OVER " ++ window ++ " ")]) ++ behind clauses)
  | .other form args => .word (form ++ "(") :: exprs args ++ [.word ")"]

def exprs : List Expr → List Tok
  | [] => []
  | e :: es => expr e ++ exprsTail es

def exprsTail : List Expr → List Tok
  | [] => []
  | e :: es => .word ", " :: expr e ++ exprsTail es

/-- Clauses, each behind a blank. -/
def behind : List Expr → List Tok
  | [] => []
  | e :: es => .word " " :: expr e ++ behind es

end

/-! ### Clauses -/

def parenthesized (es : List Expr) : List Tok := .word "(" :: exprs es ++ [.word ")"]

def distinctText : Option Distinct → List Tok
  | none => []
  | some .all => [.word "ALL "]
  | some .distinct => [.word "DISTINCT "]
  | some (.on es) => .word "DISTINCT ON " :: parenthesized es ++ [.word " "]

def topText : Option Top → List Tok
  | none => []
  | some t => .word "TOP " :: exprs t.quantity.toList ++
      [.word (if t.withTies then " WITH TIES " else " ")]

def quantifier (distinct : Option Distinct) (top : Option Top) : List Tok :=
  distinctText distinct ++ topText top

def selectItem : SelectItem → List Tok
  | .unnamedExpr e => expr e
  | .exprWithAlias e name => expr e ++ [.word (" AS " ++ ident name)]
  | .qualifiedWildcard name => [.word (dotted name ++ ".*")]
  | .wildcard => [.word "*"]

def projection (items : List SelectItem) : List Tok := commaSep (items.map selectItem)

def groupBy : GroupByExpr → List Tok
  | .all modifiers => .word " GROUP BY ALL" :: behind modifiers
  | .expressions [] modifiers => behind modifiers
  | .expressions (e :: es) modifiers => .word " GROUP BY " :: exprs (e :: es) ++ behind modifiers

def selectRest (namedWindow rest : List Expr) : List Tok := behind namedWindow ++ behind rest

def orderByExpr (e : OrderByExpr) : List Tok :=
  expr e.expr ++ .word e.options.text :: behind e.withFill.toList

def orderBy : Option OrderBy → List Tok
  | none => []
  | some ⟨.expressions es, interpolate⟩ =>
      .word " ORDER BY " :: commaSep (es.map orderByExpr) ++ behind interpolate.toList
  | some ⟨.all options, interpolate⟩ =>
      .word " ORDER BY ALL" :: .word options.text :: behind interpolate.toList

def limitClause : Option LimitClause → List Tok
  | none => []
  | some (.limitOffset limit offset limitBy) =>
      (limit.elim [] fun e => .word " LIMIT " :: expr e) ++
        (offset.elim [] fun o => .word " OFFSET " :: expr o.value) ++
        ((offset.elim [] fun o => match o.rows with
            | .none => []
            | .row => [.word " ROW"]
            | .rows => [.word " ROWS"]) ++
          match limitBy with
          | [] => []
          | e :: es => .word " BY " :: exprs (e :: es))
  | some (.offsetCommaLimit offset limit) =>
      .word " LIMIT " :: expr offset ++ .word ", " :: expr limit

def setOperator (op : SetOperator) (quantifier : SetQuantifier) : String :=
  (match op with
    | .union => " UNION"
    | .intersect => " INTERSECT"
    | .except => " EXCEPT") ++
  match quantifier with
    | .all => " ALL "
    | .distinct => " DISTINCT "
    | .none => " "

def joinWord : JoinKind → String
  | .join => " JOIN "
  | .inner => " INNER JOIN "
  | .left => " LEFT JOIN "
  | .leftOuter => " LEFT OUTER JOIN "
  | .right => " RIGHT JOIN "
  | .rightOuter => " RIGHT OUTER JOIN "
  | .fullOuter => " FULL JOIN "
  | .cross => " CROSS JOIN "
  | .other kind => " " ++ kind ++ " "

def joinConstraint : JoinConstraint → List Tok
  | .on e => .word " ON " :: expr e
  | .using columns => [.word (" USING(" ++ ", ".intercalate (columns.map ident) ++ ")")]
  | .natural => [.word " NATURAL"]
  | .none => []

def tableAlias : Option Ident → List Tok
  | none => []
  | some name => [.word (" AS " ++ ident name)]

def valueRows : List (List Expr) → List Tok
  | [] => []
  | row :: rows => .word " " :: parenthesized row ++ valueRows rows

/-! ### Queries -/

mutual

def tableFactor : TableFactor → List Tok
  | .table name name' => .word (dotted name) :: tableAlias name'
  | .derived lateral subquery name =>
      (if lateral then [.word "LATERAL "] else []) ++
        .word "(" :: query subquery ++ .word ")" :: tableAlias name
  | .nestedJoin t name => .word "(" :: tableWithJoins t ++ .word ")" :: tableAlias name
  | .other form args => .word (form ++ "(") :: exprs args ++ [.word ")"]

def tableWithJoins : TableWithJoins → List Tok
  | ⟨relation, joins⟩ => tableFactor relation ++ joinList joins

def joinList : List Join → List Tok
  | [] => []
  | ⟨relation, op⟩ :: joins =>
      .word (joinWord op.kind) :: tableFactor relation ++ joinConstraint op.constraint ++
        joinList joins

def tables : List TableWithJoins → List Tok
  | [] => []
  | t :: ts => .word " FROM " :: tableWithJoins t ++ tablesTail ts

def tablesTail : List TableWithJoins → List Tok
  | [] => []
  | t :: ts => .word ", " :: tableWithJoins t ++ tablesTail ts

def setExpr : SetExpr → List Tok
  | .select ⟨distinct, top, items, ts, selection, group, having, namedWindow, rest⟩ =>
      .word "SELECT " :: quantifier distinct top ++ projection items ++ tables ts ++
        (selection.elim [] fun e => .word " WHERE " :: expr e) ++ groupBy group ++
        (having.elim [] fun e => .word " HAVING " :: expr e) ++ selectRest namedWindow rest
  | .query q => .word "(" :: query q ++ [.word ")"]
  | .setOperation op quantifier l r =>
      setExpr l ++ .word (setOperator op quantifier) :: setExpr r
  | .values rows => .word "VALUES" :: valueRows rows
  | .table name => [.word ("TABLE " ++ name)]
  | .other form args => .word (form ++ "(") :: exprs args ++ [.word ")"]

def withClause : With → List Tok
  | ⟨recursive, ctes⟩ => .word (if recursive then "WITH RECURSIVE" else "WITH") :: cteList ctes

def cteList : List Cte → List Tok
  | [] => []
  | ⟨name, q⟩ :: ctes =>
      .word (" " ++ ident name ++ " AS (") :: query q ++ .word ")" :: cteList ctes

def query : Query → List Tok
  | ⟨none, body, order, limit, fetch, rest⟩ =>
      setExpr body ++ orderBy order ++ limitClause limit ++ behind fetch.toList ++ behind rest
  | ⟨some ctes, body, order, limit, fetch, rest⟩ =>
      withClause ctes ++ .word " " :: setExpr body ++ orderBy order ++ limitClause limit ++
        behind fetch.toList ++ behind rest

end

/-! ### Tokens do not run into each other -/

theorem not_openEnd_append {a b : List Char} (hb : ¬OpenEnd b) (hall : ¬b.all Char.isDigit) :
    ¬OpenEnd (a ++ b) := by
  induction a with
  | nil => exact hb
  | cons c a ih =>
      rintro (⟨-, h⟩ | h)
      · exact hall (by simp_all)
      · exact ih h

/-- A text that can be written behind anything. -/
def Clause (ts : List Tok) : Prop := Separated ts ∧ ¬StartsWithDigit (render ts)

theorem clause_nil : Clause [] := ⟨trivial, by simp⟩

theorem separated_singleton (t : Tok) : Separated [t] := ⟨by simp, trivial⟩

theorem separated_append {ts us : List Tok} (hts : Separated ts) (hus : Clause us) :
    Separated (ts ++ us) := by
  induction ts with
  | nil => exact hus.1
  | cons t ts ih =>
      refine ⟨fun hopen hdigit => ?_, ih hts.2⟩
      change StartsWithDigit (render (ts ++ us)) at hdigit
      rw [render_append] at hdigit
      cases hr : render ts with
      | nil => exact hus.2 (by simpa [hr] using hdigit)
      | cons c rest => exact hts.1 hopen (by simpa [hr] using hdigit)

theorem clause_append {ts us : List Tok} (hts : Clause ts) (hus : Clause us) :
    Clause (ts ++ us) := by
  refine ⟨separated_append hts.1 hus, fun hdigit => ?_⟩
  rw [render_append] at hdigit
  cases hr : render ts with
  | nil => exact hus.2 (by simpa [hr] using hdigit)
  | cons c rest => exact hts.2 (by simpa [hr] using hdigit)

theorem separated_word {s : String} (hs : ¬OpenEnd s.toList) {ts : List Tok}
    (hts : Separated ts) : Separated (.word s :: ts) :=
  ⟨fun h => (hs h).elim, hts⟩

theorem clause_word {s : String} (hs : ¬OpenEnd s.toList)
    (hstart : s.toList ≠ [] ∧ ¬StartsWithDigit s.toList) {ts : List Tok} (hts : Separated ts) :
    Clause (.word s :: ts) := by
  refine ⟨separated_word hs hts, ?_⟩
  obtain ⟨c, rest, hcs⟩ := List.exists_cons_of_ne_nil hstart.1
  have hc : c.isDigit = false := by simpa [hcs] using hstart.2
  simp [Tok.text, hcs, hc]

theorem clause_last {s : String} (hstart : ¬StartsWithDigit s.toList) : Clause [.word s] :=
  ⟨separated_singleton _, by simpa [Tok.text] using hstart⟩

theorem separated_commaSep {parts : List (List Tok)} (h : ∀ p ∈ parts, Separated p) :
    Separated (commaSep parts) := by
  have htail : ∀ ps : List (List Tok), (∀ p ∈ ps, Separated p) →
      Clause (ps.flatMap (.word ", " :: ·)) := by
    intro ps hps
    induction ps with
    | nil => exact clause_nil
    | cons p ps ih =>
        rw [List.flatMap_cons]
        exact clause_append (clause_word (by decide) (by decide) (hps p (by simp)))
          (ih fun q hq => hps q (by simp [hq]))
  cases parts with
  | nil => trivial
  | cons p ps => exact separated_append (h p (by simp)) (htail ps fun q hq => h q (by simp [hq]))

theorem not_openEnd_blank (s : String) : ¬OpenEnd (s ++ " ").toList := by
  rw [String.toList_append]
  exact not_openEnd_append (by decide) (by decide)

theorem not_openEnd_paren (s : String) : ¬OpenEnd (s ++ "(").toList := by
  rw [String.toList_append]
  exact not_openEnd_append (by decide) (by decide)

theorem clause_blank_word (s : String) {ts : List Tok} (hts : Separated ts) :
    Clause (.word (" " ++ s ++ " ") :: ts) :=
  clause_word (not_openEnd_blank _) (by simp [String.toList_append]) hts

theorem clause_escape : ∀ v, Clause (escape v)
  | none => clause_nil
  | some (.singleQuotedString s) => clause_last (by simp [String.toList_append])
  | some (.number _ _) => clause_word (by decide) (by decide) (separated_singleton _)
  | some (.boolean _) => clause_word (by decide) (by decide) (separated_singleton _)
  | some .null => clause_word (by decide) (by decide) (separated_singleton _)
  | some (.placeholder _ _) => clause_word (by decide) (by decide) (separated_singleton _)

theorem clause_close : Clause [.word ")"] := clause_last (by decide)

mutual

theorem separated_expr : ∀ e, Separated (expr e)
  | .identifier _ => separated_singleton _
  | .compoundIdentifier _ => separated_singleton _
  | .wildcard => separated_singleton _
  | .value _ => separated_singleton _
  | .binaryOp l op r =>
      separated_append (separated_expr l) (clause_blank_word op.symbol (separated_expr r))
  | .unaryOp .not e => separated_word (by decide) (separated_expr e)
  | .unaryOp (.other symbol) e => separated_word (not_openEnd_blank symbol) (separated_expr e)
  | .nested e => separated_word (by decide) (separated_append (separated_expr e) clause_close)
  | .isNull e => separated_append (separated_expr e) (clause_last (by decide))
  | .isNotNull e => separated_append (separated_expr e) (clause_last (by decide))
  | .inList e list negated => by
      refine separated_append (separated_append (separated_expr e)
        (clause_word ?_ ?_ (separated_exprs list))) clause_close <;>
        cases negated <;> decide
  | .between e negated low high => by
      refine separated_append (separated_append (separated_expr e)
        (clause_word ?_ ?_ (separated_expr low)))
          (clause_word (by decide) (by decide) (separated_expr high)) <;>
        cases negated <;> decide
  | .like negated e pattern escapeChar => by
      refine separated_append (separated_append (separated_expr e)
        (clause_word ?_ ?_ (separated_expr pattern))) (clause_escape escapeChar) <;>
        cases negated <;> decide
  | .ilike negated e pattern escapeChar => by
      refine separated_append (separated_append (separated_expr e)
        (clause_word ?_ ?_ (separated_expr pattern))) (clause_escape escapeChar) <;>
        cases negated <;> decide
  | .function name treatment args «over» clauses => by
      refine separated_word ?_ (separated_append (separated_exprs args) (clause_word (by decide)
        (by decide) (separated_append ?_ (clause_behind clauses))))
      · rcases treatment with _ | _ | _
        · simpa [DuplicateTreatment.text] using not_openEnd_paren (dotted name)
        all_goals
          rw [String.toList_append]
          exact not_openEnd_append (by decide) (by decide)
      · cases «over» with
        | none => trivial
        | some window => exact separated_singleton _
  | .other form args =>
      separated_word (not_openEnd_paren form) (separated_append (separated_exprs args) clause_close)

theorem separated_exprs : ∀ es, Separated (exprs es)
  | [] => trivial
  | e :: es => separated_append (separated_expr e) (clause_exprsTail es)

theorem clause_exprsTail : ∀ es, Clause (exprsTail es)
  | [] => clause_nil
  | e :: es =>
      clause_word (by decide) (by decide)
        (separated_append (separated_expr e) (clause_exprsTail es))

theorem clause_behind : ∀ es, Clause (behind es)
  | [] => clause_nil
  | e :: es =>
      clause_word (by decide) (by decide)
        (separated_append (separated_expr e) (clause_behind es))

end

theorem separated_parenthesized (es : List Expr) : Separated (parenthesized es) :=
  separated_word (by decide) (separated_append (separated_exprs es) clause_close)

theorem separated_selectItem : ∀ item, Separated (selectItem item)
  | .unnamedExpr e => separated_expr e
  | .exprWithAlias e name =>
      separated_append (separated_expr e) (clause_last (by simp [String.toList_append]))
  | .qualifiedWildcard _ => separated_singleton _
  | .wildcard => separated_singleton _

theorem separated_projection (items : List SelectItem) : Separated (projection items) := by
  refine separated_commaSep fun p hp => ?_
  obtain ⟨item, -, rfl⟩ := List.mem_map.mp hp
  exact separated_selectItem item

theorem clause_groupBy : ∀ g, Clause (groupBy g)
  | .all modifiers => clause_word (by decide) (by decide) (clause_behind modifiers).1
  | .expressions [] modifiers => clause_behind modifiers
  | .expressions (e :: es) modifiers =>
      clause_append (clause_word (by decide) (by decide) (separated_exprs (e :: es)))
        (clause_behind modifiers)

theorem clause_optionText (o : OrderByOptions) (ts : List Tok) (hts : Separated ts)
    (hstart : ¬StartsWithDigit (render ts)) : Clause (.word o.text :: ts) := by
  obtain ⟨asc, nulls⟩ := o
  have htext : ¬OpenEnd (OrderByOptions.text ⟨asc, nulls⟩).toList ∧
      ¬StartsWithDigit (OrderByOptions.text ⟨asc, nulls⟩).toList := by
    rcases asc with _ | _ | _ <;> rcases nulls with _ | _ | _ <;> decide
  exact clause_append (clause_last htext.2) ⟨hts, hstart⟩

theorem clause_orderBy : ∀ o, Clause (orderBy o)
  | none => clause_nil
  | some ⟨.expressions es, interpolate⟩ => by
      refine clause_append (clause_word (by decide) (by decide) (separated_commaSep ?_))
        (clause_behind interpolate.toList)
      intro p hp
      obtain ⟨e, -, rfl⟩ := List.mem_map.mp hp
      exact separated_append (separated_expr e.expr)
        (clause_optionText e.options _ (clause_behind _).1 (clause_behind _).2)
  | some ⟨.all options, interpolate⟩ =>
      clause_word (by decide) (by decide)
        (clause_optionText options _ (clause_behind _).1 (clause_behind _).2).1

theorem clause_limitClause : ∀ l, Clause (limitClause l)
  | none => clause_nil
  | some (.limitOffset limit offset limitBy) => by
      refine clause_append (clause_append ?_ ?_) (clause_append ?_ ?_)
      · cases limit with
        | none => exact clause_nil
        | some e => exact clause_word (by decide) (by decide) (separated_expr e)
      · cases offset with
        | none => exact clause_nil
        | some o => exact clause_word (by decide) (by decide) (separated_expr o.value)
      · rcases offset with _ | ⟨_, _ | _ | _⟩
        · exact clause_nil
        · exact clause_nil
        · exact clause_last (by decide)
        · exact clause_last (by decide)
      · cases limitBy with
        | nil => exact clause_nil
        | cons e es => exact clause_word (by decide) (by decide) (separated_exprs (e :: es))
  | some (.offsetCommaLimit offset limit) =>
      clause_append (clause_word (by decide) (by decide) (separated_expr offset))
        (clause_word (by decide) (by decide) (separated_expr limit))

theorem clause_tableAlias : ∀ name, Clause (tableAlias name)
  | none => clause_nil
  | some _ => clause_last (by simp [String.toList_append])

theorem clause_joinConstraint : ∀ c, Clause (joinConstraint c)
  | .on e => clause_word (by decide) (by decide) (separated_expr e)
  | .using _ => clause_last (by simp [String.toList_append])
  | .natural => clause_last (by decide)
  | .none => clause_nil

theorem clause_valueRows : ∀ rows, Clause (valueRows rows)
  | [] => clause_nil
  | row :: rows =>
      clause_append (clause_word (by decide) (by decide) (separated_parenthesized row))
        (clause_valueRows rows)

theorem clause_joinWord (kind : JoinKind) {ts : List Tok} (hts : Separated ts) :
    Clause (.word (joinWord kind) :: ts) := by
  cases kind with
  | other kind => exact clause_blank_word kind hts
  | _ => exact clause_word (by decide) (by decide) hts

theorem separated_quantifier_append (distinct : Option Distinct) (top : Option Top)
    {ts : List Tok} (hts : Separated ts) : Separated (quantifier distinct top ++ ts) := by
  have htop : Separated (topText top ++ ts) := by
    cases top with
    | none => exact hts
    | some t =>
        have hlast : Clause (.word (if t.withTies then " WITH TIES " else " ") :: ts) := by
          refine clause_word ?_ ?_ hts <;> cases t.withTies <;> decide
        simpa [topText] using separated_word (s := "TOP ") (by decide)
          (separated_append (separated_exprs t.quantity.toList) hlast)
  rw [quantifier, List.append_assoc]
  rcases distinct with _ | _ | _ | es
  · exact htop
  · exact separated_word (by decide) htop
  · exact separated_word (by decide) htop
  · have hblank : Clause (.word " " :: (topText top ++ ts)) :=
      clause_word (by decide) (by decide) htop
    simpa [distinctText] using separated_word (s := "DISTINCT ON ") (by decide)
      (separated_append (separated_parenthesized es) hblank)

theorem clause_setOperator (op : SetOperator) (quantifier : SetQuantifier) {ts : List Tok}
    (hts : Separated ts) : Clause (.word (setOperator op quantifier) :: ts) := by
  refine clause_word ?_ ?_ hts <;> cases op <;> cases quantifier <;> decide

theorem clause_behindOption (e : Option Expr) : Clause (behind e.toList) := clause_behind _

mutual

theorem separated_tableFactor : ∀ t, Separated (tableFactor t)
  | .table _ name => separated_append (separated_singleton _) (clause_tableAlias name)
  | .derived lateral subquery name => by
      have hquery := separated_append (separated_word (s := "(") (by decide)
        (separated_query subquery)) (clause_word (s := ")") (by decide) (by decide)
          (clause_tableAlias name).1)
      cases lateral with
      | false => exact hquery
      | true => exact separated_word (by decide) hquery
  | .nestedJoin t name =>
      separated_append (separated_word (by decide) (separated_tableWithJoins t))
        (clause_word (by decide) (by decide) (clause_tableAlias name).1)
  | .other form args =>
      separated_word (not_openEnd_paren form) (separated_append (separated_exprs args) clause_close)

theorem separated_tableWithJoins : ∀ t, Separated (tableWithJoins t)
  | ⟨relation, joins⟩ => separated_append (separated_tableFactor relation) (clause_joinList joins)

theorem clause_joinList : ∀ joins, Clause (joinList joins)
  | [] => clause_nil
  | ⟨relation, op⟩ :: joins =>
      clause_append (clause_append (clause_joinWord op.kind (separated_tableFactor relation))
        (clause_joinConstraint op.constraint)) (clause_joinList joins)

theorem clause_tables : ∀ ts, Clause (tables ts)
  | [] => clause_nil
  | t :: ts =>
      clause_append (clause_word (by decide) (by decide) (separated_tableWithJoins t))
        (clause_tablesTail ts)

theorem clause_tablesTail : ∀ ts, Clause (tablesTail ts)
  | [] => clause_nil
  | t :: ts =>
      clause_append (clause_word (by decide) (by decide) (separated_tableWithJoins t))
        (clause_tablesTail ts)

theorem separated_setExpr : ∀ e, Separated (setExpr e)
  | .select ⟨distinct, top, items, ts, selection, group, having, namedWindow, rest⟩ => by
      have hwhere : Clause (selection.elim [] fun e => .word " WHERE " :: expr e) := by
        cases selection with
        | none => exact clause_nil
        | some e => exact clause_word (by decide) (by decide) (separated_expr e)
      have hhaving : Clause (having.elim [] fun e => .word " HAVING " :: expr e) := by
        cases having with
        | none => exact clause_nil
        | some e => exact clause_word (by decide) (by decide) (separated_expr e)
      have hrest : Clause (selectRest namedWindow rest) :=
        clause_append (clause_behind namedWindow) (clause_behind rest)
      have htail := clause_append (clause_tables ts) (clause_append hwhere
        (clause_append (clause_groupBy group) (clause_append hhaving hrest)))
      simpa [setExpr] using separated_word (s := "SELECT ") (by decide)
        (separated_quantifier_append distinct top
          (separated_append (separated_projection items) htail))
  | .query q => separated_append (separated_word (by decide) (separated_query q)) clause_close
  | .setOperation op quantifier l r =>
      separated_append (separated_setExpr l) (clause_setOperator op quantifier (separated_setExpr r))
  | .values rows => separated_word (by decide) (clause_valueRows rows).1
  | .table _ => separated_singleton _
  | .other form args =>
      separated_word (not_openEnd_paren form) (separated_append (separated_exprs args) clause_close)

theorem separated_withClause : ∀ w, Separated (withClause w)
  | ⟨recursive, ctes⟩ => by
      refine separated_word ?_ (clause_cteList ctes).1
      cases recursive <;> decide

theorem clause_cteList : ∀ ctes, Clause (cteList ctes)
  | [] => clause_nil
  | ⟨name, q⟩ :: ctes => by
      refine clause_append (clause_word ?_ (by simp [String.toList_append]) (separated_query q))
        (clause_word (by decide) (by decide) (clause_cteList ctes).1)
      rw [String.toList_append]
      exact not_openEnd_append (by decide) (by decide)

theorem separated_query : ∀ q, Separated (query q)
  | ⟨none, body, order, limit, fetch, rest⟩ =>
      separated_append (separated_append (separated_append (separated_append
        (separated_setExpr body) (clause_orderBy order)) (clause_limitClause limit))
          (clause_behindOption fetch)) (clause_behind rest)
  | ⟨some ctes, body, order, limit, fetch, rest⟩ =>
      separated_append (separated_append (separated_append (separated_append
        (separated_append (separated_withClause ctes)
          (clause_word (by decide) (by decide) (separated_setExpr body)))
          (clause_orderBy order)) (clause_limitClause limit))
          (clause_behindOption fetch)) (clause_behind rest)

end

/-! ### The printer -/

theorem exprs_eq (es : List Expr) : exprs es = commaSep (es.map expr) := by
  have htail : ∀ es, exprsTail es = (es.map expr).flatMap (.word ", " :: ·) := by
    intro es
    induction es with
    | nil => rfl
    | cons e es ih => simp [exprsTail, ih]
  cases es with
  | nil => rfl
  | cons e es => simp [exprs, commaSep, htail]

end SqlxData.Sqlparser.Reference

namespace SqlxData.Sqlparser

/-- The printer of the examples. -/
def Display.reference : Display where
  ident := Reference.ident
  expr := Reference.expr
  escape := Reference.escape
  quantifier := Reference.quantifier
  projection := Reference.projection
  «from» := Reference.tables
  groupBy := Reference.groupBy
  selectRest := Reference.selectRest
  setOperator := Reference.setOperator
  setExpr := Reference.setExpr
  «with» := Reference.withClause
  orderBy := Reference.orderBy
  limitClause := Reference.limitClause
  fetch e := Reference.behind e.toList
  queryRest := Reference.behind
  query := Reference.query
  other form := [.word form]
  ident_new _ := rfl
  expr_identifier _ := rfl
  expr_wildcard := rfl
  expr_placeholder _ _ := rfl
  expr_number _ := rfl
  expr_binaryOp _ _ _ := rfl
  expr_not _ := rfl
  expr_nested _ := rfl
  expr_isNull _ := rfl
  expr_isNotNull _ := rfl
  expr_inList e list negated := by simp [Reference.expr, Reference.exprs_eq]
  expr_between _ _ _ _ := rfl
  expr_like _ _ _ _ := rfl
  expr_ilike _ _ _ _ := rfl
  expr_call name treatment args := by
    simp [Reference.expr, Reference.exprs_eq, Reference.dotted, Reference.behind]
  escape_none := rfl
  escape_backslash := rfl
  quantifier_none := rfl
  projection_unnamed e := by simp [Reference.projection, Reference.selectItem, commaSep]
  from_derived q name := by
    simp [Reference.tables, Reference.tableWithJoins, Reference.tableFactor, Reference.joinList,
      Reference.tablesTail, Reference.tableAlias]
  groupBy_none := rfl
  selectRest_none := rfl
  setExpr_select s := by cases s; rfl
  setExpr_query _ := rfl
  setExpr_setOperation _ _ _ _ := rfl
  orderBy_none := rfl
  orderBy_expressions es := by
    simp [Reference.orderBy, Reference.orderByExpr, Reference.behind, Function.comp_def]
  limitClause_none := rfl
  limitClause_limitOffset limit offset limitBy := by
    refine ⟨_, rfl, ?_⟩
    rintro ⟨rfl, hrows⟩
    cases offset with
    | none => rfl
    | some o => simp [hrows o rfl]
  limitClause_offsetCommaLimit _ _ := rfl
  fetch_none := rfl
  queryRest_none := rfl
  query_eq q := by
    obtain ⟨ctes, body, order, limit, fetch, rest⟩ := q
    cases ctes <;> simp [Reference.query]
  separated := Reference.separated_query

/-! ### Small statements -/

namespace Reference

def simpleSelect (items : List SelectItem) (table : String) (selection : Option Expr) : Select :=
  { distinct := none
    top := none
    projection := items
    «from» := [⟨.table [.new table] none, []⟩]
    selection := selection
    groupBy := .expressions [] []
    having := none
    namedWindow := []
    rest := [] }

def simpleQuery (body : SetExpr) : Query := ⟨none, body, none, none, none, []⟩

def text (q : Query) : List Char := render (Display.reference.query q)

/-- A parser that knows one text: the print of one query. -/
def parserOf (q : Query) : Core.Parser := fun sql =>
  if sql = text q then some [.query q] else none

/-- A parser that knows the prints of some queries. -/
def parserOfAll (qs : List Query) : Core.Parser := fun sql =>
  (qs.find? fun q => text q = sql).map fun q => [.query q]

end Reference

end SqlxData.Sqlparser
