import SqlxData.Core.ParserCount
import SqlxData.Count.Engine

/-!
The count query as a statement. `countStatement` is the query whose text
`generate_count_query` returns, with the `1` of its projection read as a
number; what it counts is the number of rows of the query it is made from, of
the rows that pass WHERE, or of the distinct values of an expression.
-/

namespace SqlxData.Count

open SqlxData.Sqlparser SqlxData.Core

/-- The data query without its top-level ORDER BY, LIMIT, OFFSET and FETCH. -/
def stripped (q : Query) : Query := { q with orderBy := none, limitClause := none, fetch := none }

/-- `SELECT COUNT(*) FROM (inner) AS sub` behind a WITH clause. -/
def countedRows (withClause : Option With) (inner : Query) : Query where
  «with» := withClause
  body := .select {
    distinct := none
    top := none
    projection := [.unnamedExpr (countExpr none none)]
    «from» := [⟨.derived false inner (some (.new "sub")), []⟩]
    selection := none
    groupBy := .expressions [] []
    having := none
    namedWindow := []
    rest := [] }
  orderBy := none
  limitClause := none
  fetch := none
  rest := []

def starSelect (s : Select) : Select := { s with projection := [.unnamedExpr (countExpr none none)] }

def distinctSelect (s : Select) (e : Expr) : Select :=
  { s with distinct := none, projection := [.unnamedExpr (countExpr (some e) (some .distinct))] }

def oneSelect (s : Select) : Select :=
  { s with projection := [.unnamedExpr (.value (.number "1" false))] }

def countStatement (q : Query) (primaryKey : Option String) : Query :=
  match q.body, (analyzeQueryBody q primaryKey).strategy with
  | .select s, .simpleCount => { stripped q with body := .select (starSelect s) }
  | .select s, .countDistinct [e] => { stripped q with body := .select (distinctSelect s e) }
  | .select s, .subqueryCount =>
      countedRows q.with
        (if canOptimizeToSelect1 s then { Query.forCount q with body := .select (oneSelect s) }
        else Query.forCount q)
  | _, _ => countedRows q.with (Query.forCount q)

/-! ### The text -/

theorem prependWith_render (D : Display) (q : Query) :
    prependWith D q.with (render (D.query { q with «with» := none })) = render (D.query q) := by
  rw [D.query_eq, D.query_eq q]
  cases q.with with
  | none => simp [prependWith]
  | some w => simp [prependWith]

/-- The text around a derived table whose rows are counted. -/
theorem render_countedRows (D : Display) (inner : Query) :
    render (D.query (countedRows none inner)) =
      "SELECT ".toList ++ ("COUNT(".toList ++ ("*".toList ++ (")".toList ++ (" FROM ".toList ++
        ("(".toList ++ (render (D.query inner) ++ (")".toList ++ " AS sub".toList))))))) := by
  rw [D.query_eq]
  simp only [countedRows, countExpr, D.setExpr_select, D.quantifier_none, D.projection_unnamed,
    D.expr_call, D.ident_new, D.from_derived, D.groupBy_none, D.selectRest_none, D.orderBy_none,
    D.limitClause_none, D.fetch_none, D.queryRest_none]
  have hcall : "COUNT" ++ "(" ++ DuplicateTreatment.text none = "COUNT(" := by decide
  have hname : " AS " ++ "sub" = " AS sub" := by decide
  rw [hcall, hname]
  simp [D.expr_wildcard, commaSep]

theorem countWrapper_eq (D : Display) (inner : Query) :
    countWrapper D inner = render (D.query (countedRows none inner)) := by
  have hstart : "SELECT COUNT(*) FROM (".toList =
      "SELECT ".toList ++ ("COUNT(".toList ++ ("*".toList ++ (")".toList ++ (" FROM ".toList ++
        "(".toList)))) := by simp
  have hend : ") AS sub".toList = ")".toList ++ " AS sub".toList := by simp
  rw [render_countedRows]
  unfold countWrapper
  rw [hstart, hend]
  simp only [List.append_assoc]

theorem countWrapper_congr (D : Display) {q r : Query}
    (h : render (D.query q) = render (D.query r)) : countWrapper D q = countWrapper D r := by
  unfold countWrapper
  rw [h]

/-- The `1` of a count query is printed as an identifier. -/
theorem render_oneSelect (D : Display) (q : Query) (s : Select) :
    render (D.query { q with body := .select { s with
      projection := [.unnamedExpr (.identifier (.new "1"))] } }) =
      render (D.query { q with body := .select (oneSelect s) }) := by
  rw [D.query_eq, D.query_eq { q with body := .select (oneSelect s) }]
  simp [oneSelect, D.setExpr_select, D.projection_unnamed, D.expr_identifier, D.ident_new,
    D.expr_number]

/-- Where the WITH clause is not put back there is none. -/
theorem with_eq_none_of_countDistinct {q : Query} {pk : Option String} {es : List Expr}
    (h : (analyzeQueryBody q pk).strategy = .countDistinct es) : q.with = none := by
  have hcte : hasCte q = false := by
    revert h
    unfold analyzeQueryBody
    cases q.body with
    | select s =>
        dsimp only
        split_ifs with hties hearly <;> intro h
        · cases h
        · cases h
        all_goals
          simp only [Bool.or_eq_true, not_or, Bool.not_eq_true] at hearly
          exact hearly.1.1.1
    | _ => intro h; cases h
  simpa [hasCte] using hcte

/-- The text of the count query is that of `countStatement`. -/
theorem generateCountQuery_eq (D : Display) (q : Query) (pk : Option String) :
    generateCountQuery D (.query q) pk = render (D.query (countStatement q pk)) := by
  have hwrapped (inner : Query) : prependWith D q.with (countWrapper D inner) =
      render (D.query (countedRows q.with inner)) := by
    rw [countWrapper_eq]
    exact prependWith_render D (countedRows q.with inner)
  have hkept (body : SetExpr) : prependWith D q.with
      (render (D.query { Query.forCount q with body := body })) =
        render (D.query { stripped q with body := body }) :=
    prependWith_render D { stripped q with body := body }
  simp only [generateCountQuery, countStatement, analyzeQuery, Query.forCount]
  cases hbody : q.body with
  | select s =>
      cases hstrategy : (analyzeQueryBody q pk).strategy with
      | simpleCount => exact hkept _
      | countDistinct es =>
          match es with
          | [] => exact hwrapped _
          | [e] =>
              have hwith := with_eq_none_of_countDistinct hstrategy
              dsimp only
              rw [show stripped q = Query.forCount q by simp [stripped, Query.forCount, hwith]]
              rfl
          | _ :: _ :: _ => exact hwrapped _
      | subqueryCount =>
          dsimp only
          split_ifs with hone
          · have htext := countWrapper_congr D (render_oneSelect D (Query.forCount q) s)
            exact (congrArg (prependWith D q.with) htext).trans (hwrapped _)
          · exact hwrapped _
  | _ =>
      have hstrategy : (analyzeQueryBody q pk).strategy = .subqueryCount := by
        simp [analyzeQueryBody, hbody]
      simp only [hstrategy, hwrapped]

/-! ### The calls of a count query -/

variable {Env Scope V : Type} (E : Engine Env Scope V)

theorem aggregated_countExpr (maybeExpr : Option Expr) (treatment : Option DuplicateTreatment) :
    E.aggregated (countExpr maybeExpr treatment) := by
  simp [Engine.aggregated, countExpr, calls, Engine.isAggregate]

theorem unrolled_countExpr_none : E.unrolled (countExpr none none) = false := by
  simp [Engine.unrolled, countExpr, calls, callsOf, E.setReturning_count]

theorem unrolled_countExpr_some {e : Expr} (h : E.plain e) :
    E.unrolled (countExpr (some e) (some .distinct)) = false := by
  have he : E.unrolled e = false := by
    simp only [Engine.plain, Bool.and_eq_true, Bool.not_eq_true'] at h
    exact h.2
  simpa [Engine.unrolled, countExpr, calls, callsOf, E.setReturning_count] using he

theorem wellNested_countExpr_none : E.wellNested (countExpr none none) := by
  simp [Engine.wellNested, countExpr, Engine.plain, Engine.aggregated, Engine.windowed,
    Engine.unrolled, calls]

theorem wellNested_countExpr_some (e : Expr) :
    E.wellNested (countExpr (some e) (some .distinct)) = E.plain e := by
  simp [Engine.wellNested, countExpr, Engine.isAggregate]

/-! ### What is counted -/

variable [DecidableEq V]

namespace Engine

/-- The rows a SELECT starts from: those of FROM that pass WHERE, the conditions
evaluated beside the projection `items`. -/
def sourceRows (env : Env) (outer : Scope) (items : List SelectItem) (s : Select) : List Scope :=
  E.passing env outer items s.selection (E.evalFrom env outer items [outer] s.from)

/-- Runs a query, unless the server refuses it. -/
def run (env : Env) (outer : Scope) (q : Query) : Option (List (Row V)) :=
  if E.accepts q then some (E.evalQuery env outer q) else none

omit [DecidableEq V] in
/-- Does the server find the names of the conditions without the projection? -/
def resolvesAlone (q : Query) (s : Select) : Bool :=
  E.resolves (withTables q.with) [] [] s.from s.selection

omit [DecidableEq V] in
/-- Does the server take the query as a derived table behind its WITH clause? -/
def derivesBody (q : Query) : Bool := E.derives (withTables q.with) (Query.forCount q)

end Engine

/-- The value of the count query is the number of rows of the data query
without its top-level ORDER BY, LIMIT, OFFSET and FETCH. -/
def CountAgrees (env : Env) (outer : Scope) (q : Query) : Prop :=
  E.run env outer (countStatement q none) =
    some [[some (E.ofNat (E.evalQuery env outer (stripped q)).length)]]

/-! ### Which queries the server takes -/

section

omit [DecidableEq V]

theorem accepts_stripped (q : Query) :
    E.accepts (stripped q) = (E.acceptsWith [] [] q.with &&
      E.acceptsBody (withTables q.with) [] q.body) := by
  cases q
  simp [Engine.accepts, stripped, Engine.acceptsQuery]

theorem acceptsBody_select (ctes : List Cte) (outer : List TableWithJoins) (s : Select) :
    E.acceptsBody ctes outer (.select s) =
      ((itemExprs s.projection).all E.wellNested &&
        E.resolves ctes outer s.projection s.from s.selection &&
          E.acceptsFrom ctes outer outer s.from) := by
  cases s
  rfl

/-- Conditions name no alias of a projection without aliases. -/
theorem resolves_of_no_aliases {items : List SelectItem} (hitems : itemAliases items = [])
    (ctes : List Cte) (outer : List TableWithJoins) (tables : List TableWithJoins)
    (selection : Option Expr) :
    E.resolves ctes outer items tables selection = E.resolves ctes outer [] tables selection :=
  E.resolves_noAlias ctes outer items tables selection fun e _ =>
    E.naming.namesNoAlias_of_no_aliases hitems e

/-- The query with another projection, one without aliases. -/
theorem acceptsBody_replaced {q : Query} (haccepts : E.accepts (stripped q)) {s s' : Select}
    (hbody : q.body = .select s) (hfrom : s'.from = s.from) (hselection : s'.selection = s.selection)
    (haliases : itemAliases s'.projection = []) :
    E.acceptsWith [] [] q.with = true ∧
      E.acceptsBody (withTables q.with) [] (.select s') =
        ((itemExprs s'.projection).all E.wellNested && E.resolvesAlone q s) := by
  rw [accepts_stripped, hbody, acceptsBody_select] at haccepts
  simp only [Bool.and_eq_true] at haccepts
  obtain ⟨hwith, -, htables⟩ := haccepts
  refine ⟨hwith, ?_⟩
  rw [acceptsBody_select, hfrom, hselection, resolves_of_no_aliases E haliases, htables,
    Bool.and_true, Engine.resolvesAlone]

theorem accepts_replaced {q : Query} (haccepts : E.accepts (stripped q)) {s s' : Select}
    (hbody : q.body = .select s) (hfrom : s'.from = s.from) (hselection : s'.selection = s.selection)
    (haliases : itemAliases s'.projection = []) :
    E.accepts { stripped q with body := .select s' } =
      ((itemExprs s'.projection).all E.wellNested && E.resolvesAlone q s) := by
  obtain ⟨hwith, hselect⟩ := acceptsBody_replaced E haccepts hbody hfrom hselection haliases
  have hstripped := accepts_stripped E { q with body := .select s' }
  rw [hwith, hselect, Bool.true_and] at hstripped
  exact hstripped

/-- A derived table is counted when the server takes it. -/
theorem accepts_countedRows (withClause : Option With) (inner : Query) :
    E.accepts (countedRows withClause inner) = (E.acceptsWith [] [] withClause &&
      (E.acceptsQuery (withTables withClause) [] inner &&
        E.derives (withTables withClause) inner)) := by
  have hresolves : E.resolves (withTables withClause) [] [.unnamedExpr (countExpr none none)]
      [⟨.derived false inner (some (.new "sub")), []⟩] none = true :=
    E.resolves_of_no_conditions _ _ _ _ _ rfl
  simp [Engine.accepts, Engine.acceptsQuery, countedRows, Engine.acceptsBody, itemExprs,
    wellNested_countExpr_none, hresolves, Engine.acceptsFrom, Engine.acceptsTable,
    Engine.acceptsFactor, Engine.acceptsJoins]

theorem acceptsQuery_forCount (ctes : List Cte) (q : Query) :
    E.acceptsQuery ctes [] (Query.forCount q) = E.acceptsBody ctes [] q.body := by
  cases q
  rfl

/-- A query the server takes is counted as it stands when the server takes it
as a derived table. -/
theorem accepts_kept {q : Query} (haccepts : E.accepts (stripped q)) :
    E.accepts (countedRows q.with (Query.forCount q)) = E.derivesBody q := by
  rw [accepts_stripped, Bool.and_eq_true] at haccepts
  obtain ⟨hwith, hbody⟩ := haccepts
  rw [accepts_countedRows, acceptsQuery_forCount, hwith, hbody]
  rfl

theorem derives_one {q : Query} {s : Select} (hbody : q.body = .select s) {e : Expr}
    (hitem : s.projection = [.unnamedExpr e]) (ctes : List Cte) : E.derives ctes q = true := by
  have hlength := E.columnNames_unnamed ctes q s e hbody hitem
  obtain ⟨name, hname⟩ := List.length_eq_one_iff.mp hlength
  simp [Engine.derives, hname]

theorem accepts_oneSelect {q : Query} (haccepts : E.accepts (stripped q)) {s : Select}
    (hbody : q.body = .select s) :
    E.accepts (countedRows q.with { Query.forCount q with body := .select (oneSelect s) }) =
      E.resolvesAlone q s := by
  have hfrom : (oneSelect s).from = s.from := rfl
  obtain ⟨hwith, hselect⟩ := acceptsBody_replaced E haccepts hbody hfrom rfl rfl
  have hforCount := acceptsQuery_forCount E (withTables q.with)
    { q with body := .select (oneSelect s) }
  have hone : E.wellNested (.value (.number "1" false)) = true := rfl
  rw [accepts_countedRows, hwith, derives_one E (s := oneSelect s) rfl rfl]
  rw [hselect] at hforCount
  simpa [oneSelect, itemExprs, hone, Query.forCount] using hforCount

end

section

variable (env : Env) (outer : Scope)

@[simp] theorem evalWith_none : E.evalWith env outer none = env := rfl

/-- Nothing but FROM, WHERE and the projection. -/
structure Ungrouped (s : Select) : Prop where
  top : s.top = none
  groupBy : ∃ modifiers, s.groupBy = .expressions [] modifiers
  having : s.having = none
  rest : s.rest = []

theorem evalBody_select (orderBy : Option OrderBy) (s : Select) :
    E.evalBody env outer orderBy (.select s) =
      E.select env outer orderBy s (E.evalFrom env outer s.projection [outer] s.from) := by
  cases s
  rfl

theorem evalQuery_stripped {q : Query} (hrest : q.rest = []) :
    E.evalQuery env outer (stripped q) =
      (E.evalBody (E.evalWith env outer q.with) outer none q.body).map Output.row := by
  cases q
  subst hrest
  rfl

/-- Keeping the WITH clause aside and running the rest behind it is running
the query. -/
theorem evalQuery_forCount (q : Query) :
    E.evalQuery (E.evalWith env outer q.with) outer (Query.forCount q) =
      E.evalQuery env outer (stripped q) := by
  cases q
  rfl

/-- The rows are the same beside a projection whose aliases no condition names. -/
theorem sourceRows_noAlias {items : List SelectItem} {s : Select}
    (h : ∀ e ∈ conditions s.from s.selection, E.naming.NamesNoAlias items e) :
    E.sourceRows env outer items s = E.sourceRows env outer [] s := by
  simp only [conditions, List.mem_append] at h
  rw [Engine.sourceRows, Engine.sourceRows,
    E.evalFrom_noAlias env outer items s.from fun e he => h e (.inl he),
    E.passing_noAlias env outer items s.selection fun e he => h e (.inr he)]

theorem sourceRows_of_no_aliases {items : List SelectItem} (hitems : itemAliases items = [])
    (s : Select) : E.sourceRows env outer items s = E.sourceRows env outer [] s :=
  sourceRows_noAlias E env outer fun e _ => E.naming.namesNoAlias_of_no_aliases hitems e

theorem itemAliases_starSelect (s : Select) : itemAliases (starSelect s).projection = [] := rfl

theorem itemAliases_distinctSelect (s : Select) (e : Expr) :
    itemAliases (distinctSelect s e).projection = [] := rfl

theorem itemAliases_oneSelect (s : Select) : itemAliases (oneSelect s).projection = [] := rfl

/-- A SELECT whose only item is an aggregate returns the value of the item on
all rows. -/
theorem evalBody_aggregate {s : Select} (hs : Ungrouped s) {e : Expr}
    (hitem : s.projection = [.unnamedExpr e]) (hdistinct : s.distinct = none)
    (haggregate : E.aggregated e) (hplain : E.unrolled e = false) :
    (E.evalBody env outer none (.select s)).map Output.row =
      [[E.evaluate env outer s.namedWindow [E.sourceRows env outer s.projection s]
        (E.sourceRows env outer s.projection s) e]] := by
  obtain ⟨htop, ⟨modifiers, hgroup⟩, hhaving, hrest⟩ := hs
  have hgrouped : E.grouped none s := by
    simp [Engine.grouped, hitem, itemExprs, haggregate]
  have hgroups (rows : List Scope) : E.groupsOf env outer none s rows = [rows] := by
    simp [Engine.groupsOf, hgrouped, hgroup, hhaving]
  have houtputs (rows : List Scope) : E.outputs env outer s [rows] rows =
      [⟨[[E.evaluate env outer s.namedWindow [rows] rows e]], [], rows⟩] := by
    simp [Engine.outputs, hitem, hdistinct, itemExprs, onKeys, hplain, Engine.item]
  rw [evalBody_select, Engine.select, hgroups]
  simp [Engine.allOutputs, houtputs, hrest, hdistinct, htop, Engine.selectBehind, Engine.sorted,
    Engine.distinctOutputs, Engine.topped, Output.row, Engine.sourceRows]

/-- A SELECT that is not grouped and has no function that returns a set gives
one row for each of its source rows. -/
theorem length_evalBody_of_not_grouped {s : Select} (hdistinct : s.distinct = none)
    (htop : s.top = none) (hrest : s.rest = []) (hgrouped : E.grouped none s = false)
    (hplain : (itemExprs s.projection).any E.unrolled = false) :
    (E.evalBody env outer none (.select s)).length =
      (E.sourceRows env outer s.projection s).length := by
  have houtputs (groups : List (List Scope)) (group : List Scope) :
      (E.outputs env outer s groups group).length = 1 := by
    simp [Engine.outputs, hdistinct, onKeys, hplain]
  rw [evalBody_select, Engine.select]
  simp [Engine.allOutputs, houtputs, hrest, hdistinct, htop, Engine.selectBehind, Engine.sorted,
    Engine.distinctOutputs, Engine.topped, Engine.groupsOf, hgrouped, Engine.sourceRows,
    Function.comp_def]

/-! The four count queries. -/

/-- The rows of a query are counted one by one. -/
theorem evalQuery_countedRows (withClause : Option With) (inner : Query) :
    E.evalQuery env outer (countedRows withClause inner) =
      [[some (E.ofNat (E.evalQuery (E.evalWith env outer withClause) outer inner).length)]] := by
  have hstripped := evalQuery_stripped E env outer (q := countedRows withClause inner) rfl
  rw [show stripped (countedRows withClause inner) = countedRows withClause inner from rfl]
    at hstripped
  rw [hstripped, countedRows, evalBody_aggregate E _ outer ⟨rfl, ⟨[], rfl⟩, rfl, rfl⟩ rfl rfl
    (aggregated_countExpr E none none) (unrolled_countExpr_none E)]
  simp [Engine.sourceRows, Engine.passing, Engine.evalFrom, Engine.evalTable, Engine.evalJoins,
    Engine.evalFactor, countExpr, Engine.evaluate]

theorem run_of_accepts {q : Query} {b : Bool} (h : E.accepts q = b) :
    E.run env outer q = if b then some (E.evalQuery env outer q) else none := by
  rw [Engine.run, h]

theorem run_starSelect {q : Query} (haccepts : E.accepts (stripped q)) (hqrest : q.rest = [])
    {s : Select} (hbody : q.body = .select s) (hs : Ungrouped s) (hdistinct : s.distinct = none) :
    E.run env outer { stripped q with body := .select (starSelect s) } =
      if E.resolvesAlone q s then
        some [[some (E.ofNat (E.sourceRows (E.evalWith env outer q.with) outer [] s).length)]]
      else none := by
  have hfrom : (starSelect s).from = s.from := rfl
  have haccepts' := accepts_replaced E haccepts hbody hfrom rfl rfl
  have hnested : (itemExprs (starSelect s).projection).all E.wellNested := by
    simp [starSelect, itemExprs, wellNested_countExpr_none]
  rw [hnested, Bool.true_and] at haccepts'
  have hrows := evalQuery_stripped E env outer (q := { q with body := .select (starSelect s) }) hqrest
  rw [evalBody_aggregate E _ outer (s := starSelect s)
    ⟨hs.top, hs.groupBy, hs.having, hs.rest⟩ rfl hdistinct
    (aggregated_countExpr E none none) (unrolled_countExpr_none E),
    sourceRows_of_no_aliases E _ outer (itemAliases_starSelect s)] at hrows
  rw [run_of_accepts E env outer haccepts']
  exact if_congr Iff.rfl (congrArg some hrows) rfl

theorem run_distinctSelect {q : Query} (haccepts : E.accepts (stripped q)) (hqrest : q.rest = [])
    {s : Select} (hbody : q.body = .select s) (hs : Ungrouped s) {e : Expr}
    (hplain : E.plain e) :
    E.run env outer { stripped q with body := .select (distinctSelect s e) } =
      if E.resolvesAlone q s then
        some [[some (E.ofNat (E.distinctValues (E.evalWith env outer q.with) outer s.namedWindow e
          (E.sourceRows (E.evalWith env outer q.with) outer [] s)))]]
      else none := by
  have hfrom : (distinctSelect s e).from = s.from := rfl
  have haccepts' := accepts_replaced E haccepts hbody hfrom rfl rfl
  have hnested : (itemExprs (distinctSelect s e).projection).all E.wellNested := by
    simp [distinctSelect, itemExprs, wellNested_countExpr_some, hplain]
  rw [hnested, Bool.true_and] at haccepts'
  have hrows := evalQuery_stripped E env outer
    (q := { q with body := .select (distinctSelect s e) }) hqrest
  rw [evalBody_aggregate E _ outer (s := distinctSelect s e)
    ⟨hs.top, hs.groupBy, hs.having, hs.rest⟩ rfl rfl
    (aggregated_countExpr E (some e) (some .distinct)) (unrolled_countExpr_some E hplain),
    sourceRows_of_no_aliases E _ outer (itemAliases_distinctSelect s e)] at hrows
  rw [run_of_accepts E env outer haccepts']
  exact if_congr Iff.rfl (congrArg some hrows) rfl

/-- The server refuses to count the distinct values of an expression that
calls an aggregate, a window function or a function that returns a set. -/
theorem run_distinctSelect_of_not_plain {q : Query} (haccepts : E.accepts (stripped q))
    {s : Select} (hbody : q.body = .select s) {e : Expr} (h : E.plain e = false) :
    E.run env outer { stripped q with body := .select (distinctSelect s e) } = none := by
  have hfrom : (distinctSelect s e).from = s.from := rfl
  have haccepts' := accepts_replaced E haccepts hbody hfrom rfl rfl
  have hnested : (itemExprs (distinctSelect s e).projection).all E.wellNested = false := by
    simp [distinctSelect, itemExprs, wellNested_countExpr_some, h]
  rw [hnested, Bool.false_and] at haccepts'
  exact run_of_accepts E env outer haccepts'

/-- `SELECT 1` gives one row for each of the source rows. -/
theorem length_evalQuery_oneSelect {q : Query} (hqrest : q.rest = []) {s : Select}
    (hs : Ungrouped s) (hdistinct : s.distinct = none) :
    (E.evalQuery (E.evalWith env outer q.with) outer
        { Query.forCount q with body := .select (oneSelect s) }).length =
      (E.sourceRows (E.evalWith env outer q.with) outer [] s).length := by
  obtain ⟨htop, ⟨modifiers, hgroup⟩, hhaving, hrest⟩ := hs
  have hgrouped : E.grouped none (oneSelect s) = false := by
    simp [Engine.grouped, oneSelect, hgroup, hhaving, hdistinct, itemExprs, onKeys, orderExprs,
      Engine.aggregated, calls]
  have hplain : (itemExprs (oneSelect s).projection).any E.unrolled = false := by
    simp [oneSelect, itemExprs, Engine.unrolled, calls]
  calc
    (E.evalQuery (E.evalWith env outer q.with) outer
        { Query.forCount q with body := .select (oneSelect s) }).length =
      (E.evalQuery env outer (stripped { q with body := .select (oneSelect s) })).length :=
        congrArg List.length (evalQuery_forCount E env outer { q with body := .select (oneSelect s) })
    _ = (E.evalBody (E.evalWith env outer q.with) outer none (.select (oneSelect s))).length := by
        rw [evalQuery_stripped E env outer (q := { q with body := .select (oneSelect s) }) hqrest,
          List.length_map]
    _ = (E.sourceRows (E.evalWith env outer q.with) outer (oneSelect s).projection s).length :=
        length_evalBody_of_not_grouped E _ outer hdistinct htop hrest hgrouped hplain
    _ = (E.sourceRows (E.evalWith env outer q.with) outer [] s).length := by
        rw [sourceRows_of_no_aliases E _ outer (itemAliases_oneSelect s)]

end

/-! ### Which statement it is -/

/-- A DISTINCT query is counted by the distinct values of its only
expression. -/
structure Shortcut (q : Query) (s : Select) (e : Expr) : Prop where
  cte : hasCte q = false
  groupBy : hasGroupBy s = false
  having : hasHaving s = false
  window : hasWindowFunctions s = false
  derived : hasSubqueryInFromOrJoin s = false
  only : getProjectedExprRefs s = [e]

theorem countStatement_of_not_select {q : Query} (h : ∀ s, q.body ≠ .select s) :
    countStatement q none = countedRows q.with (Query.forCount q) := by
  unfold countStatement
  cases hbody : q.body with
  | select s => exact absurd hbody (h s)
  | _ => rfl

theorem hasWithTies_of_top {s : Select} (h : s.top = none) : hasWithTies s = false := by
  simp [hasWithTies, h]

theorem hasSubqueryInFromOrJoin_of_complex {s : Select}
    (h : hasComplexSubqueryInFromOrJoin s = true) : hasSubqueryInFromOrJoin s = true := by
  have hmono (f : TableFactor) : derivedAnd isComplexSubquery f = true →
      derivedAnd (fun _ => true) f = true := by
    cases f <;> simp [derivedAnd]
  simp only [hasComplexSubqueryInFromOrJoin, hasSubqueryInFromOrJoin, anyDerived, List.any_eq_true,
    Bool.or_eq_true] at h ⊢
  obtain ⟨t, ht, h | ⟨join, hjoin, h⟩⟩ := h
  · exact ⟨t, ht, .inl (hmono _ h)⟩
  · exact ⟨t, ht, .inr ⟨join, hjoin, hmono _ h⟩⟩

theorem countStatement_of_shortcut {q : Query} {s : Select} (hbody : q.body = .select s)
    (hdistinct : s.distinct.isSome) (htop : s.top = none) {e : Expr} (h : Shortcut q s e) :
    countStatement q none = { stripped q with body := .select (distinctSelect s e) } := by
  have hstrategy : (analyzeQueryBody q none).strategy = .countDistinct [e] := by
    simp [analyzeQueryBody, hbody, hasWithTies_of_top htop, h.cte, h.groupBy, h.having, h.window,
      h.derived, hdistinct, analyzeDistinct, h.only]
  simp only [countStatement, hbody, hstrategy]

theorem countStatement_of_no_shortcut {q : Query} {s : Select} (hbody : q.body = .select s)
    (hdistinct : s.distinct.isSome) (htop : s.top = none) (h : ∀ e, ¬Shortcut q s e) :
    countStatement q none = countedRows q.with (Query.forCount q) := by
  have hcan : canOptimizeToSelect1 s = false := by
    simp [canOptimizeToSelect1, Option.isNone_eq_false_iff.mpr hdistinct]
  have hstrategy : (analyzeQueryBody q none).strategy = .subqueryCount ∨
      ∃ es, (analyzeQueryBody q none).strategy = .countDistinct es ∧ ∀ e, es ≠ [e] := by
    simp only [analyzeQueryBody, hbody, hasWithTies_of_top htop, hdistinct, if_true,
      Bool.false_eq_true, if_false]
    split_ifs with hearly hderived
    · exact .inl rfl
    · exact .inl rfl
    · simp only [Bool.or_eq_true, not_or, Bool.not_eq_true] at hearly hderived
      obtain ⟨⟨⟨hcte, hgroup⟩, hhaving⟩, hwindow⟩ := hearly
      simp only [analyzeDistinct]
      split_ifs with hempty
      · exact .inl rfl
      · exact .inr ⟨_, rfl, fun e he => h e ⟨hcte, hgroup, hhaving, hwindow, hderived, he⟩⟩
  obtain hstrategy | ⟨es, hstrategy, hes⟩ := hstrategy
  · simp [countStatement, hbody, hstrategy, hcan]
  · match es with
    | [] => simp [countStatement, hbody, hstrategy]
    | [e] => exact absurd rfl (hes e)
    | _ :: _ :: _ => simp [countStatement, hbody, hstrategy]

/-- Without DISTINCT the projection is replaced by `COUNT(*)` or, inside a
derived table, by `1`, when the rest of the query allows it. -/
theorem countStatement_of_canOptimize {q : Query} {s : Select} (hbody : q.body = .select s)
    (hdistinct : s.distinct = none) (htop : s.top = none) (h : canOptimizeToSelect1 s = true) :
    countStatement q none = { stripped q with body := .select (starSelect s) } ∨
      countStatement q none =
        countedRows q.with { Query.forCount q with body := .select (oneSelect s) } := by
  have hstrategy : (analyzeQueryBody q none).strategy = .simpleCount ∨
      (analyzeQueryBody q none).strategy = .subqueryCount := by
    simp only [analyzeQueryBody, hbody, hasWithTies_of_top htop, hdistinct, Bool.false_eq_true,
      if_false, Option.isSome_none]
    split_ifs <;> simp
  obtain hstrategy | hstrategy := hstrategy
  · exact .inl (by simp only [countStatement, hbody, hstrategy])
  · exact .inr (by simp only [countStatement, hbody, hstrategy, h, if_true])

theorem countStatement_of_not_canOptimize {q : Query} {s : Select} (hbody : q.body = .select s)
    (hdistinct : s.distinct = none) (htop : s.top = none) (h : canOptimizeToSelect1 s = false) :
    countStatement q none = countedRows q.with (Query.forCount q) := by
  have hstrategy : (analyzeQueryBody q none).strategy = .subqueryCount := by
    simp only [analyzeQueryBody, hbody, hasWithTies_of_top htop, hdistinct, Bool.false_eq_true,
      if_false, Option.isSome_none]
    split_ifs with hearly hderived
    · rfl
    · rfl
    -- Without the early tests nothing is left that forbids the replacement.
    all_goals
      simp only [Bool.or_eq_true, not_or, Bool.not_eq_true] at hearly
      obtain ⟨⟨⟨hcte, hgroup⟩, hhaving⟩, hwindow⟩ := hearly
      have hcomplex : hasComplexSubqueryInFromOrJoin s = true := by
        simpa [canOptimizeToSelect1, hdistinct, hgroup, hhaving, hwindow] using h
      exact absurd (hasSubqueryInFromOrJoin_of_complex hcomplex) hderived
  simp [countStatement, hbody, hstrategy, h]

/-! ### Agreement -/

section

variable (env : Env) (outer : Scope)

/-- A query that is counted as it stands has to be taken as a derived table. -/
theorem countAgrees_iff_of_kept {q : Query} (haccepts : E.accepts (stripped q))
    (h : countStatement q none = countedRows q.with (Query.forCount q)) :
    CountAgrees E env outer q ↔ E.derivesBody q = true := by
  rw [CountAgrees, h, run_of_accepts E env outer (accepts_kept E haccepts), evalQuery_countedRows,
    evalQuery_forCount]
  cases E.derivesBody q <;> simp

theorem countAgrees_iff_of_run {q : Query} {b : Bool} {k : ℕ}
    (h : E.run env outer (countStatement q none) =
      if b then some [[some (E.ofNat k)]] else none) :
    CountAgrees E env outer q ↔ b = true ∧ k = (E.evalQuery env outer (stripped q)).length := by
  rw [CountAgrees, h]
  cases b <;> simp [E.ofNat_injective.eq_iff]

/-- With the projection replaced, the source rows are counted. -/
theorem countAgrees_iff_of_canOptimize {q : Query} (haccepts : E.accepts (stripped q))
    (hqrest : q.rest = []) {s : Select} (hbody : q.body = .select s) (hs : Ungrouped s)
    (hdistinct : s.distinct = none) (h : canOptimizeToSelect1 s = true) :
    CountAgrees E env outer q ↔ E.resolvesAlone q s = true ∧
      (E.sourceRows (E.evalWith env outer q.with) outer [] s).length =
        (E.evalQuery env outer (stripped q)).length := by
  apply countAgrees_iff_of_run
  obtain hstar | hone := countStatement_of_canOptimize hbody hdistinct hs.top h
  · rw [hstar, run_starSelect E env outer haccepts hqrest hbody hs hdistinct]
  · rw [hone, run_of_accepts E env outer (accepts_oneSelect E haccepts hbody),
      evalQuery_countedRows, length_evalQuery_oneSelect E env outer hqrest hs hdistinct]

end

end SqlxData.Count
