import SqlxData.Count.DistinctQuery
import SqlxData.Dynamic.FilterMeaning
import Mathlib.Data.Multiset.UnionInter
import Mathlib.Data.Multiset.Dedup

/-!
Filters and a search go through set operations: the query whose SELECTs have
got the conditions returns the rows of the query that satisfy them, every row
as often, as far as the conditions mean what the filters do.
-/

namespace SqlxData.Dynamic

open SqlxData.Sqlparser SqlxData.Count DistinctCount ThreeValued Comparisons

variable {Env Scope V : Type}

/-! ### Bags of rows -/

section Bags

variable {α : Type} [DecidableEq α]

/-- A set operation on bags. -/
def bagOperation (op : SetOperator) (quantifier : SetQuantifier) (s t : Multiset α) :
    Multiset α :=
  match op, quantifier with
  | .union, .all => s + t
  | .intersect, .all => s ∩ t
  | .except, .all => s - t
  | .union, _ => (s + t).dedup
  | .intersect, _ => (s ∩ t).dedup
  | .except, _ => s.dedup - t

theorem dedup_filter (p : α → Prop) [DecidablePred p] (s : Multiset α) :
    (s.filter p).dedup = s.dedup.filter p := by
  ext a
  by_cases hp : p a <;> simp [Multiset.count_dedup, hp]

/-- Selection goes through every set operation. -/
theorem filter_bagOperation (op : SetOperator) (quantifier : SetQuantifier) (p : α → Prop)
    [DecidablePred p] (s t : Multiset α) :
    bagOperation op quantifier (s.filter p) (t.filter p) =
      (bagOperation op quantifier s t).filter p := by
  cases op <;> cases quantifier <;>
    simp only [bagOperation, Multiset.filter_add, Multiset.filter_inter, Multiset.filter_sub,
      ← dedup_filter]

/-- DISTINCT on a bag. -/
def distinctBag : Option Distinct → Multiset α → Multiset α
  | some .distinct, s => s.dedup
  | _, s => s

theorem filter_distinctBag (d : Option Distinct) (p : α → Prop) [DecidablePred p]
    (s : Multiset α) : distinctBag d (s.filter p) = (distinctBag d s).filter p := by
  rcases d with _ | _ | _ | keys
  · rfl
  · rfl
  · exact dedup_filter p s
  · rfl

end Bags

theorem coe_setOperation [DecidableEq V] (op : SetOperator) (quantifier : SetQuantifier)
    (left right : List (Row V)) :
    (setOperation op quantifier left right : Multiset (Row V)) =
      bagOperation op quantifier (left : Multiset (Row V)) right := by
  have hinter : ((left.filter (· ∈ right)).dedup : Multiset (Row V)) =
      ((left : Multiset (Row V)) ∩ right).dedup := by
    ext a
    rw [← Multiset.coe_dedup, Multiset.count_dedup, Multiset.count_dedup]
    simp
  have hexcept : ((left.filter (· ∉ right)).dedup : Multiset (Row V)) =
      (left : Multiset (Row V)).dedup - right := by
    ext a
    rw [← Multiset.coe_dedup, Multiset.count_dedup, Multiset.count_sub, Multiset.count_dedup]
    by_cases hright : a ∈ right
    · have hpos : 1 ≤ Multiset.count a (right : Multiset (Row V)) := by
        simpa [Multiset.one_le_count_iff_mem] using hright
      rw [if_neg (by simp [hright])]
      split_ifs <;> omega
    · simp [hright]
  -- ALL is the operation on bags; without it the left side is made a set first
  match op, quantifier with
  | .union, .all => exact (Multiset.coe_add left right).symm
  | .intersect, .all =>
      change ((left.bagInter right : List (Row V)) : Multiset (Row V)) = ↑left ∩ ↑right
      convert (Multiset.coe_inter left right).symm
  | .except, .all =>
      change ((left.diff right : List (Row V)) : Multiset (Row V)) = ↑left - ↑right
      convert (Multiset.coe_sub left right).symm
  | .union, .distinct | .union, .none => exact (Multiset.coe_dedup (left ++ right)).symm
  | .intersect, .distinct | .intersect, .none => exact hinter
  | .except, .distinct | .except, .none => exact hexcept

/-! ### Servers -/

/-- The value of a scalar expression on a row of FROM. -/
def rowValue (E : Engine Env Scope V) (env : Env) (outer row : Scope) (e : Expr) : Option V :=
  E.value env outer [] e [[row]] [row]

/-- What WHERE reads on a row beside a projection: the values of scalars and
the truth of the operands the builder does not write. -/
structure WhereReading (Env Scope V : Type) where
  value : Env → Scope → List SelectItem → Scope → Expr → Option V
  other : Env → Scope → List SelectItem → Scope → Expr → Truth

/-- A server that follows SQL: an expression without aggregates and windows
has a value on each row for itself, WHERE keeps the rows its condition holds
on, and sorting changes the order only. -/
structure FollowsSql (E : Engine Env Scope V) (C : Comparisons V)
    (W : WhereReading Env Scope V) : Prop where
  value_row : ∀ env outer windows e groups row, E.plain e →
    E.value env outer windows e groups [row] = rowValue E env outer row e
  reads : ∀ env outer items row, C.Reads (W.value env outer items row)
  test_row : ∀ env outer items e row, E.test env outer items e [row] = true ↔
    Satisfies (C.operandTruth (W.value env outer items row) (W.other env outer items row)) e
  sort_perm : ∀ env outer orderBy outs, (E.sort env outer orderBy outs).Perm outs

variable [DecidableEq V] (E : Engine Env Scope V) (W : WhereReading Env Scope V)

/-- The rows of a body, without their order. -/
def rowsOf (env : Env) (outer : Scope) (orderBy : Option OrderBy) (body : SetExpr) :
    Multiset (Row V) :=
  ((E.evalBody env outer orderBy body).map Output.row : List (Row V))

/-- The projection of a row of FROM. -/
def projected (env : Env) (outer : Scope) (s : Select) (row : Scope) : List (Row V) :=
  s.projection.map (E.item env outer [] [[row]] [row])

/-- A SELECT that makes a row of every row of FROM that passes WHERE. -/
structure PlainLeaf (orderBy : Option OrderBy) (s : Select) : Prop where
  distinct : ∀ keys, s.distinct ≠ some (.on keys)
  top : s.top = none
  projection : ∀ e ∈ itemExprs s.projection, E.plain e
  groupBy : ∃ modifiers, s.groupBy = .expressions [] modifiers
  having : s.having = none
  orderBy : ∀ e ∈ orderExprs orderBy, E.aggregated e = false
  rest : s.rest = []

/-- The SELECT shows each of the columns, with the value WHERE reads, at its
position. -/
def Exposes (position : String → ℕ) (fields : List String) (env : Env) (outer : Scope)
    (s : Select) : Prop :=
  ∀ row ∈ E.evalFrom env outer s.projection [outer] s.from, ∀ field ∈ fields,
    (projected E env outer s row).flatten[position field]? =
      some (W.value env outer s.projection row (idExpr field))

/-- A tree of plain SELECTs that show the columns, set operations and
sub-queries without LIMIT. -/
def PlainTree (position : String → ℕ) (fields : List String) (env : Env) (outer : Scope)
    (orderBy : Option OrderBy) : SetExpr → Prop
  | .select s => PlainLeaf E orderBy s ∧ Exposes E W position fields env outer s
  | .setOperation _ _ left right =>
      PlainTree position fields env outer none left ∧
        PlainTree position fields env outer none right
  | .query ⟨ctes, body, orderBy, limitClause, fetch, rest⟩ =>
      limitClause = none ∧ fetch = none ∧ rest = [] ∧
        PlainTree position fields (E.evalWith env outer ctes) outer orderBy body
  | _ => False

/-- A column of a row of the result. -/
def columnOf (position : String → ℕ) (row : Row V) (field : String) : Option V :=
  row[position field]?.join

/-! ### SELECTs -/

section Leaf

variable {E W} {C : Comparisons V}
variable (hE : FollowsSql E C W) (env : Env) (outer : Scope)
include hE

theorem item_of_plain {items : List SelectItem} (hplain : ∀ e ∈ itemExprs items, E.plain e)
    {item : SelectItem} (hitem : item ∈ items) (windows : List Expr) (groups : List (List Scope))
    (row : Scope) :
    E.item env outer windows groups [row] item = E.item env outer [] [[row]] [row] item := by
  have hvalue {e : Expr} (he : e ∈ itemExprs items) :
      E.evaluate env outer windows groups [row] e = E.evaluate env outer [] [[row]] [row] e := by
    rw [evaluate_of_plain E env outer (hplain e he), evaluate_of_plain E env outer (hplain e he),
      hE.value_row _ _ _ _ _ _ (hplain e he), hE.value_row _ _ _ _ _ _ (hplain e he)]
  cases item with
  | unnamedExpr e =>
      simp only [Engine.item, hvalue (List.mem_filterMap.mpr ⟨_, hitem, rfl⟩)]
  | exprWithAlias e name =>
      simp only [Engine.item, hvalue (List.mem_filterMap.mpr ⟨_, hitem, rfl⟩)]
  | qualifiedWildcard name => rfl
  | wildcard => rfl

/-- A plain SELECT makes its projection of every row that passes WHERE. -/
theorem evalBody_plainLeaf {orderBy : Option OrderBy} {s : Select} (hs : PlainLeaf E orderBy s) :
    E.evalBody env outer orderBy (.select s) =
      Engine.distinctOutputs s.distinct (E.sorted env outer orderBy
        ((E.sourceRows env outer s.projection s).map fun row =>
          ⟨projected E env outer s row, [], [row]⟩)) := by
  obtain ⟨modifiers, hgroup⟩ := hs.groupBy
  have hkeys : onKeys s.distinct = [] := by
    rcases hdistinct : s.distinct with _ | _ | _ | keys
    · rfl
    · rfl
    · rfl
    · exact absurd hdistinct (hs.distinct keys)
  have haggregated : (itemExprs s.projection ++ onKeys s.distinct ++ orderExprs orderBy).any
      E.aggregated = false := by
    rw [hkeys, List.append_nil, List.any_append, Bool.or_eq_false_iff]
    constructor
    · simpa using fun e he => aggregated_of_plain E (hs.projection e he)
    · simpa using hs.orderBy
  have hunrolled : (itemExprs s.projection ++ onKeys s.distinct).any E.unrolled = false := by
    rw [hkeys, List.append_nil]
    simpa using fun e he => unrolled_of_plain E (hs.projection e he)
  -- nothing is aggregated: every row is a group of its own
  have hgroups (rows : List Scope) : E.groupsOf env outer orderBy s rows = rows.map ([·]) := by
    simp only [Engine.groupsOf, Engine.grouped, hgroup, hs.having, haggregated]
    rfl
  have hitems (groups : List (List Scope)) (row : Scope) :
      s.projection.map (E.item env outer s.namedWindow groups [row]) =
        projected E env outer s row :=
    List.map_congr_left fun item hitem =>
      item_of_plain hE env outer hs.projection hitem s.namedWindow groups row
  have houtputs (groups : List (List Scope)) (row : Scope) :
      E.outputs env outer s groups [row] = [⟨projected E env outer s row, [], [row]⟩] := by
    rw [Engine.outputs, if_neg (by rw [hunrolled]; exact Bool.false_ne_true), hkeys, hitems]
    rfl
  rw [evalBody_select, Engine.select, hgroups, hs.rest, hs.top]
  simp only [Engine.selectBehind, Engine.topped, Engine.allOutputs, List.flatMap_map, houtputs,
    ← List.map_eq_flatMap, Engine.sourceRows]

omit [DecidableEq V] in
theorem sorted_perm (orderBy : Option OrderBy) (outs : List (Output Scope V)) :
    (E.sorted env outer orderBy outs).Perm outs := by
  cases orderBy with
  | none => exact .refl _
  | some orderBy => exact hE.sort_perm env outer orderBy outs

theorem rowsOf_plainLeaf {orderBy : Option OrderBy} {s : Select} (hs : PlainLeaf E orderBy s) :
    rowsOf E env outer orderBy (.select s) =
      (distinctBag s.distinct
        ((E.sourceRows env outer s.projection s).map
          (projected E env outer s) : List (List (Row V)))).map List.flatten := by
  rw [rowsOf, evalBody_plainLeaf hE env outer hs]
  generalize E.sourceRows env outer s.projection s = rows
  have htuples (outs : List (Output Scope V)) :
      ((outs.map Output.row : List (Row V)) : Multiset (Row V)) =
        ((outs.map (·.tuple) : List (List (Row V))) : Multiset _).map List.flatten := by
    rw [Multiset.map_coe, List.map_map]
    rfl
  rw [htuples]
  congr 1
  generalize houts : (rows.map fun row =>
    (⟨projected E env outer s row, [], [row]⟩ : Output Scope V)) = outs
  have hprojected : rows.map (projected E env outer s) = outs.map (·.tuple) := by
    rw [← houts, List.map_map]
    rfl
  have hsorted := (sorted_perm hE env outer orderBy outs).map (·.tuple)
  rw [hprojected]
  rcases hdistinct : s.distinct with _ | _ | _ | keys
  · exact Multiset.coe_eq_coe.mpr hsorted
  · exact Multiset.coe_eq_coe.mpr hsorted
  · have hfirst := map_firstOfEach_perm (fun o : Output Scope V => o.tuple)
      (E.sorted env outer orderBy outs)
    exact (Multiset.coe_eq_coe.mpr (hfirst.trans hsorted.dedup)).trans
      (Multiset.coe_dedup _).symm
  · exact absurd hdistinct (hs.distinct keys)

omit [DecidableEq V] in
/-- The rows that pass the WHERE of a SELECT with the conditions. -/
theorem passing_withDynamicWhere {cfg : Config} {params : Params} {parts : DynamicParts}
    (hshape : parts.WellShaped) (hmean : parts.Mean C cfg params) (items : List SelectItem)
    (selection : Option Expr) (rows : List Scope) :
    E.passing env outer items (withDynamicWhere selection parts.combined) rows =
      (E.passing env outer items selection rows).filter fun row =>
        params.keeps C cfg fun name => W.value env outer items row (idExpr name) := by
  have hpassing (clause : Option Expr) :
      E.passing env outer items clause rows =
        rows.filter fun row => clause.all fun e => E.test env outer items e [row] := by
    cases clause with
    | none => simp [Engine.passing]
    | some e => rfl
  rw [hpassing, hpassing, List.filter_filter]
  apply List.filter_congr
  intro row _
  have hwhere := satisfies_withDynamicWhere hshape
    (C.operandTruth (W.value env outer items row) (W.other env outer items row)) selection
  rw [hmean _ _ (hE.reads env outer items row)] at hwhere
  rw [Bool.eq_iff_iff, Bool.and_eq_true, Option.all_eq_true, Option.all_eq_true]
  simp only [hE.test_row]
  exact hwhere.trans and_comm

theorem rowsOf_pushedLeaf {cfg : Config} {params : Params} {position : String → ℕ}
    {orderBy : Option OrderBy} {s : Select} (hs : PlainLeaf E orderBy s)
    (hexposes : Exposes E W position params.fields env outer s) {parts : DynamicParts}
    (hshape : parts.WellShaped) (hmean : parts.Mean C cfg params) :
    rowsOf E env outer orderBy
        (.select { s with selection := withDynamicWhere s.selection parts.combined }) =
      (rowsOf E env outer orderBy (.select s)).filter
        fun row => params.keeps C cfg (columnOf position row) = true := by
  have hpushed : PlainLeaf E orderBy
      { s with selection := withDynamicWhere s.selection parts.combined } :=
    ⟨hs.distinct, hs.top, hs.projection, hs.groupBy, hs.having, hs.orderBy, hs.rest⟩
  rw [rowsOf_plainLeaf hE env outer hs, rowsOf_plainLeaf hE env outer hpushed,
    Engine.sourceRows, passing_withDynamicWhere hE env outer hshape hmean, Multiset.filter_map,
    ← filter_distinctBag, Multiset.filter_coe, List.filter_map]
  -- a row that comes out of FROM shows the columns the filters look at
  congr 4
  apply List.filter_congr
  intro row hrow
  have hfrom : row ∈ E.evalFrom env outer s.projection [outer] s.from := by
    cases hselection : s.selection with
    | none => simpa [Engine.passing, hselection] using hrow
    | some e =>
        simp only [Engine.passing, hselection] at hrow
        exact List.mem_of_mem_filter hrow
  have hcolumns : ∀ field ∈ params.fields,
      W.value env outer s.projection row (idExpr field) =
        columnOf position (projected E env outer s row).flatten field := by
    intro field hfield
    rw [columnOf, hexposes row hfrom field hfield]
    rfl
  simp [Params.keeps_congr C cfg hcolumns]

end Leaf

/-! ### Trees -/

section Tree

variable {E W} {C : Comparisons V}

/-- Pushed into the SELECTs of the tree, the conditions select from its rows. -/
def Pushed (E : Engine Env Scope V) (W : WhereReading Env Scope V) (C : Comparisons V) (cfg : Config) (params : Params)
    (position : String → ℕ) (body body' : SetExpr) : Prop :=
  ∀ env outer orderBy, PlainTree E W position params.fields env outer orderBy body →
    rowsOf E env outer orderBy body' =
      (rowsOf E env outer orderBy body).filter
        fun row => params.keeps C cfg (columnOf position row) = true

variable {cfg : Config} {params : Params} {position : String → ℕ}

theorem yields_processSelect_pushed (hE : FollowsSql E C W) (hcursor : WithoutCursor params)
    (s : Select) :
    Yields (fun s' => Pushed E W C cfg params position (.select s) (.select s'))
      (processSelect cfg params s) := by
  refine (yields_dynamicParts.and (yields_dynamicParts_say (C := C) hcursor)).map ?_
  rintro parts ⟨hshape, hmean⟩ env outer orderBy ⟨hs, hexposes⟩
  exact rowsOf_pushedLeaf hE env outer hs hexposes hshape hmean

omit [DecidableEq V] in
/-- Rows of a sub-query or a set operation are the same rows in any order. -/
theorem coe_sorted_ofRow (hE : FollowsSql E C W) (env : Env) (outer : Scope)
    (orderBy : Option OrderBy) (rows : List (Row V)) :
    (((E.sorted env outer orderBy (rows.map .ofRow)).map Output.row : List (Row V)) :
      Multiset (Row V)) = rows := by
  have hperm := (sorted_perm hE env outer orderBy (rows.map Output.ofRow)).map Output.row
  have hrows : (rows.map (@Output.ofRow Scope V)).map Output.row = rows := by
    simp [Function.comp_def, Output.ofRow, Output.row]
  rw [hrows] at hperm
  exact Multiset.coe_eq_coe.mpr hperm

theorem rowsOf_setOperation (hE : FollowsSql E C W) (env : Env) (outer : Scope)
    (orderBy : Option OrderBy) (op : SetOperator) (quantifier : SetQuantifier)
    (left right : SetExpr) :
    rowsOf E env outer orderBy (.setOperation op quantifier left right) =
      bagOperation op quantifier (rowsOf E env outer none left) (rowsOf E env outer none right) := by
  rw [rowsOf, Engine.evalBody, coe_sorted_ofRow hE, coe_setOperation]
  rfl

/-- A sub-query without LIMIT has the rows of its body. -/
theorem rowsOf_query (hE : FollowsSql E C W) (env : Env) (outer : Scope)
    (orderBy orderBy' : Option OrderBy) (ctes : Option With) (body : SetExpr) :
    rowsOf E env outer orderBy (.query ⟨ctes, body, orderBy', none, none, []⟩) =
      rowsOf E (E.evalWith env outer ctes) outer orderBy' body := by
  rw [rowsOf, Engine.evalBody, coe_sorted_ofRow hE, Engine.evalQuery]
  rfl

theorem yields_processSetExpr_pushed (hE : FollowsSql E C W) (hcursor : WithoutCursor params)
    (body : SetExpr) :
    Yields (Pushed E W C cfg params position body) (processSetExpr cfg params body) := by
  fun_induction processSetExpr cfg params body with
  | case1 s => exact (yields_processSelect_pushed hE hcursor s).map fun s' h => h
  | case2 op quantifier left right ihl ihr =>
      refine ihl.seq fun left' hl => ihr.map fun right' hr => ?_
      rintro env outer orderBy ⟨hleft, hright⟩
      rw [rowsOf_setOperation hE, rowsOf_setOperation hE, hl env outer none hleft,
        hr env outer none hright, filter_bagOperation]
  | case3 ctes body orderBy' limitClause fetch rest ih =>
      refine ih.map fun body' h => ?_
      rintro env outer orderBy ⟨rfl, rfl, rfl, hbody⟩
      rw [rowsOf_query hE, rowsOf_query hE]
      exact h (E.evalWith env outer ctes) outer orderBy' hbody
  | case4 rows => exact yields_pure fun env outer orderBy h => h.elim
  | case5 name => exact yields_pure fun env outer orderBy h => h.elim
  | case6 form args => exact yields_pure fun env outer orderBy h => h.elim

/-- On a tree of plain SELECTs that show the columns, the processed tree
returns, every row as often, the rows of the tree the generated conditions keep. -/
theorem rowsOf_processSetExpr (hE : FollowsSql E C W) (hcursor : WithoutCursor params)
    {env : Env} {outer : Scope} {orderBy : Option OrderBy} {body body' : SetExpr}
    (hbody : PlainTree E W position params.fields env outer orderBy body) {s s' : BindState}
    (hrun : (processSetExpr cfg params body).run s = .ok (body', s')) :
    rowsOf E env outer orderBy body' =
      (rowsOf E env outer orderBy body).filter
        fun row => params.keeps C cfg (columnOf position row) = true :=
  yields_processSetExpr_pushed hE hcursor body s body' s' hrun env outer orderBy hbody

/-- Filters and search go through set operations exactly when no misread
filter decides on a row of the tree: the processed tree returns, every row as
often, the rows of the tree that satisfy filters and search. -/
theorem filters_pushed_down_iff (hE : FollowsSql E C W) (hcursor : WithoutCursor params)
    {env : Env} {outer : Scope} {orderBy : Option OrderBy} {body body' : SetExpr}
    (hbody : PlainTree E W position params.fields env outer orderBy body) {s s' : BindState}
    (hrun : (processSetExpr cfg params body).run s = .ok (body', s')) :
    rowsOf E env outer orderBy body' =
        (rowsOf E env outer orderBy body).filter
          (fun row => params.selects C cfg (columnOf position row) = true) ↔
      ∀ row ∈ rowsOf E env outer orderBy body,
        params.MisreadIdle C cfg (columnOf position row) := by
  rw [rowsOf_processSetExpr hE hcursor hbody hrun]
  simp only [← Params.keeps_iff_selects_iff]
  constructor
  · intro hrows row hrow
    have hmem := congrArg (row ∈ ·) hrows
    simpa [hrow] using hmem
  · intro hrows
    exact Multiset.filter_congr hrows

end Tree

/-! ### An example -/

namespace PushDownExample

/-- Numbers, bound as they are. -/
def numbers : Comparisons ℕ where
  bound v :=
    match v with
    | .uint u => some u.toNat
    | _ => none
  lower n := n
  compare op a b :=
    match op with
    | .eq => a = b
    | .notEq => a ≠ b
    | .gt => b < a
    | .lt => a < b
    | .gtEq => b ≤ a
    | .ltEq => a ≤ b
    | _ => false
  like _ a b := a = b
  ilike _ a b := a = b

mutual

/-- The only column of the examples, bound values and calls of LOWER. -/
def scalar (column : Option ℕ) : Expr → Option ℕ
  | .identifier _ => column
  | .value (.placeholder _ (.pushed v)) => numbers.bound v
  | .function _ _ args _ _ => scalarHead column args
  | _ => none

def scalarHead (column : Option ℕ) : List Expr → Option ℕ
  | [] => none
  | e :: _ => scalar column e

end

def scalarOf (group : List (Row ℕ)) (e : Expr) : Option ℕ :=
  scalar (group.head?.bind Count.Example.column) e

def truthOf (group : List (Row ℕ)) (e : Expr) : Truth :=
  e.skeleton.eval (numbers.operandTruth (scalarOf group) fun _ => .unknown)

/-- The server of the count examples with conditions. -/
def server : Engine Count.Example.Tables (Row ℕ) ℕ :=
  Count.Example.server.withReading (fun e group => truthOf group e = .holds)
    fun e group => scalarOf group e

/-- WHERE reads the only column on a row. -/
def reading : WhereReading Count.Example.Tables (Row ℕ) ℕ where
  value _ _ _ row e := scalarOf [row] e
  other _ _ _ _ _ := .unknown

theorem server_followsSql : FollowsSql server numbers reading where
  value_row _ _ _ _ _ _ _ := rfl
  reads _ _ _ _ := ⟨fun _ _ => rfl, fun e => by
    change scalar _ e = (scalar _ e).map id
    rw [Option.map_id, id_eq]⟩
  test_row _ _ _ e row := by
    change decide (truthOf [row] e = .holds) = true ↔ _
    rw [decide_eq_true_eq]
    rfl
  sort_perm _ _ _ _ := .refl _

def fromTable (table : String) : SetExpr :=
  .select
    { distinct := none, top := none, projection := [.unnamedExpr (idExpr "x")]
      «from» := [⟨.table [.new table] none, []⟩], selection := none
      groupBy := .expressions [] [], having := none, namedWindow := [], rest := [] }

/-- `SELECT x FROM t UNION ALL (SELECT x FROM u EXCEPT SELECT x FROM t)` -/
def tree : SetExpr :=
  .setOperation .union .all (fromTable "t")
    (.query ⟨none, .setOperation .except .none (fromTable "u") (fromTable "t"), none, none, none, []⟩)

/-- A filter on the column. -/
def filtered (operator : FilterOperator) (value : FilterValue) : Params :=
  { Params.default with filters := some ⟨[⟨"x", operator, value, false⟩]⟩ }

def tables : Count.Example.Tables :=
  [("t", [some 1, some 2, some 2, none]), ("u", [some 1, some 3, some 3])]

theorem plainTree_tree (operator : FilterOperator) (value : FilterValue) :
    PlainTree server reading (fun _ => 0) (filtered operator value).fields tables [] none tree := by
  have hleaf (table : String) : PlainTree server reading (fun _ => 0)
      (filtered operator value).fields tables [] none (fromTable table) := by
    refine ⟨⟨nofun, rfl, ?_, ⟨[], rfl⟩, rfl, nofun, rfl⟩, ?_⟩
    · intro e he
      obtain rfl : e = idExpr "x" := by simpa [itemExprs] using he
      rfl
    · intro row _ field hfield
      obtain rfl : field = "x" := by simpa [filtered, Params.fields, Params.default] using hfield
      rfl
  exact ⟨hleaf "t", rfl, rfl, rfl, hleaf "u", hleaf "t"⟩

/-- What the processed tree returns, and what it should. -/
def returned (params : Params) : Except SqlxError (Multiset (Row ℕ)) :=
  ((processSetExpr (Example.build .postgres) params tree).run ⟨[], 1⟩).map fun result =>
    rowsOf server tables [] none result.1

def meant (params : Params) : Multiset (Row ℕ) :=
  (rowsOf server tables [] none tree).filter fun row =>
    params.selects numbers (Example.build .postgres) (columnOf (fun _ => 0) row) = true

end PushDownExample

open PushDownExample in
/-- With `x > 1` the two rows with 2 and, once, the row with 3. -/
theorem filter_pushed_into_union :
    ∃ body' s', (processSetExpr (Example.build .postgres) (filtered .gt (.uint 1)) tree).run
        ⟨[], 1⟩ = .ok (body', s') ∧
      rowsOf server tables [] none body' = meant (filtered .gt (.uint 1)) ∧
      rowsOf server tables [] none body' = {[some 2], [some 2], [some 3]} := by
  refine ⟨_, _, rfl, ?_, by decide⟩
  refine (filters_pushed_down_iff (s := ⟨[], 1⟩) server_followsSql (fun _ h => by cases h)
    (plainTree_tree _ _) rfl).mpr fun row _ => ?_
  -- there is no NOT IN and no ILIKE
  refine .inr (.inl fun f hf => ?_)
  obtain rfl := List.mem_singleton.mp hf
  decide

open PushDownExample in
/-- `not_in("x", [1])` keeps the row with 1, and that alone. -/
theorem notIn_pushed_into_union :
    returned (filtered .notIn (.array [.uint 1])) = .ok {[some 1]} ∧
      meant (filtered .notIn (.array [.uint 1])) = {[some 2], [some 2], [some 3]} ∧
      returned (filtered .notIn (.array [.uint 1])) ≠
        .ok (meant (filtered .notIn (.array [.uint 1]))) := by
  have hreturned : returned (filtered .notIn (.array [.uint 1])) = .ok {[some 1]} := by rfl
  have hmeant : meant (filtered .notIn (.array [.uint 1])) = {[some 2], [some 2], [some 3]} := by
    decide
  refine ⟨hreturned, hmeant, ?_⟩
  rw [hreturned, hmeant]
  intro h
  exact absurd (Except.ok.inj h) (by decide)

end SqlxData.Dynamic
