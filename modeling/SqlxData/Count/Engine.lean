import SqlxData.Count.Names
import SqlxData.Lib.DistinctCount
import Mathlib.Data.List.Lattice
import Mathlib.Algebra.GroupWithZero.Nat

/-!
What a query returns: FROM, WHERE, GROUP BY, HAVING, SELECT, DISTINCT, ORDER BY
and LIMIT in the order SQL runs them, over a database and over the functions
of a server, which stay parameters. COUNT is the one function whose value is
fixed. Conditions are evaluated beside the projection of their SELECT.
-/

namespace SqlxData.Count

open SqlxData.Sqlparser DistinctCount

/-- The values of the columns of a row; NULL is `none`. -/
abbrev Row (V : Type) := List (Option V)

/-- A row a SELECT produces: the columns of every item of the projection, the
keys of DISTINCT ON, and the rows of FROM the row comes from. -/
structure Output (Scope V : Type) where
  tuple : List (Row V)
  keys : Row V
  source : List Scope

def Output.row {Scope V : Type} (o : Output Scope V) : Row V := o.tuple.flatten

def Output.ofRow {Scope V : Type} (row : Row V) : Output Scope V := ⟨[row], [], []⟩

/-- A server: its tables and functions over an environment `Env` of named
relations, the rows `Scope` of a FROM clause and the values `V`. -/
structure Engine (Env Scope V : Type) where
  ofNat : ℕ → V
  ofNat_injective : Function.Injective ofNat
  /-- The aggregates other than `COUNT`. -/
  aggregates : List Ident → Bool
  setReturning : List Ident → Bool
  setReturning_count : setReturning [.new "COUNT"] = false
  /-- The other nodes of an expression that are queries of their own. -/
  subquery : String → Bool
  naming : Naming
  /-- Does the server find every name in the conditions of a FROM and a WHERE:
  in the common tables, the relations around, those of FROM or the projection? -/
  resolves : List Cte → List TableWithJoins → List SelectItem → List TableWithJoins →
    Option Expr → Bool
  resolves_noAlias : ∀ ctes outer items tables selection,
    (∀ e ∈ conditions tables selection, naming.NamesNoAlias items e) →
      resolves ctes outer items tables selection = resolves ctes outer [] tables selection
  resolves_of_no_conditions : ∀ ctes outer items tables selection,
    conditions tables selection = [] → resolves ctes outer items tables selection = true
  /-- Does the server refuse two columns of one name in a derived table? -/
  uniqueColumns : Bool
  columnNames : List Cte → Query → List Ident
  columnNames_unnamed : ∀ ctes q s e, q.body = .select s → s.projection = [.unnamedExpr e] →
    (columnNames ctes q).length = 1
  /-- Names a common table; its query may read the environment that holds it. -/
  define : Bool → Env → Ident → (Env → List (Row V)) → Env
  table : Env → Scope → List Ident → Option Ident → List Scope
  tableFunction : Env → Scope → List SelectItem → String → List Expr → List Scope
  tableFunction_noAlias : ∀ env left items form args,
    naming.NamesNoAlias items (.other form args) →
      tableFunction env left items form args = tableFunction env left [] form args
  /-- The row of a derived table beside the rows on its left. -/
  bind : Scope → Option Ident → Row V → Scope
  rename : Scope → Option Ident → Scope → Scope
  join : Env → List SelectItem → JoinOperator → List Scope → (Scope → List Scope) → List Scope
  join_noAlias : ∀ env items op rows right,
    (∀ e ∈ onCondition op.constraint, naming.NamesNoAlias items e) →
      join env items op rows right = join env [] op rows right
  /-- WHERE, on a single row, and HAVING, on a group. -/
  test : Env → Scope → List SelectItem → Expr → List Scope → Bool
  test_noAlias : ∀ env outer items e group, naming.NamesNoAlias items e →
    test env outer items e group = test env outer [] e group
  groups : Env → Scope → GroupByExpr → List SelectItem → List Scope → List (List Scope)
  /-- An expression on a group, its windows ranging over all groups. -/
  value : Env → Scope → List Expr → Expr → List (List Scope) → List Scope → Option V
  columns : Env → Scope → Option (List Ident) → List Scope → Row V
  /-- The rows of a projection with set-returning functions. -/
  unroll : Env → Scope → Select → List (List Scope) → List Scope → List (Output Scope V)
  selectRest : Env → Scope → List Expr → List (Output Scope V) → List (Output Scope V)
  sort : Env → Scope → OrderBy → List (Output Scope V) → List (Output Scope V)
  top : Env → Scope → Top → Option OrderBy → List (Output Scope V) → List (Output Scope V)
  limit : Env → Scope → Option OrderBy → Option LimitClause → Option Expr →
    List (Output Scope V) → List (Output Scope V)
  queryRest : Env → Scope → List Expr → List (Output Scope V) → List (Output Scope V)
  values : Env → Scope → List (List Expr) → List (Row V)
  tableCommand : Env → String → List (Row V)
  otherBody : Env → Scope → String → List Expr → List (Row V)

/-! ### Function calls -/

mutual

/-- The functions an expression calls, each with whether it has a window. -/
def calls (subquery : String → Bool) : Expr → List (List Ident × Bool)
  | .identifier _ => []
  | .compoundIdentifier _ => []
  | .wildcard => []
  | .value _ => []
  | .binaryOp left _ right => calls subquery left ++ calls subquery right
  | .unaryOp _ e => calls subquery e
  | .nested e => calls subquery e
  | .isNull e => calls subquery e
  | .isNotNull e => calls subquery e
  | .inList e list _ => calls subquery e ++ callsOf subquery list
  | .between e _ low high => calls subquery e ++ calls subquery low ++ calls subquery high
  | .like _ e pattern _ => calls subquery e ++ calls subquery pattern
  | .ilike _ e pattern _ => calls subquery e ++ calls subquery pattern
  | .function name _ args «over» clauses =>
      (name, «over».isSome) :: callsOf subquery args ++ callsOf subquery clauses
  | .other form args => if subquery form then [] else callsOf subquery args

def callsOf (subquery : String → Bool) : List Expr → List (List Ident × Bool)
  | [] => []
  | e :: es => calls subquery e ++ callsOf subquery es

end

/-- The expressions of a projection. -/
def itemExprs (items : List SelectItem) : List Expr :=
  items.filterMap fun item =>
    match item with
    | .unnamedExpr e => some e
    | .exprWithAlias e _ => some e
    | .wildcard => none
    | .qualifiedWildcard _ => none

def onKeys : Option Distinct → List Expr
  | some (.on exprs) => exprs
  | _ => []

def orderExprs : Option OrderBy → List Expr
  | some ⟨.expressions es, _⟩ => es.map (·.expr)
  | _ => []

variable {Env Scope V : Type}

namespace Engine

variable (E : Engine Env Scope V)

def isAggregate (name : List Ident) : Bool := name = [.new "COUNT"] || E.aggregates name

/-- Does the expression call an aggregate, other than as a window? -/
def aggregated (e : Expr) : Bool :=
  (calls E.subquery e).any fun call => E.isAggregate call.1 && !call.2

def windowed (e : Expr) : Bool := (calls E.subquery e).any (·.2)

def unrolled (e : Expr) : Bool := (calls E.subquery e).any fun call => E.setReturning call.1

/-- What may stand inside an aggregate: no aggregate, no window, nothing that
returns a set. -/
def plain (e : Expr) : Bool := !E.aggregated e && !E.windowed e && !E.unrolled e

/-- Does the server accept an item that is an aggregate call? -/
def wellNested : Expr → Bool
  | .function name _ args none clauses => !E.isAggregate name || (args ++ clauses).all E.plain
  | _ => true

/-- Does the server take the query as a derived table? -/
def derives (ctes : List Cte) (q : Query) : Bool :=
  !E.uniqueColumns ||
    decide ((E.columnNames ctes q).Pairwise fun name name' => E.naming.same name name' = false)

end Engine

def withTables : Option With → List Cte
  | none => []
  | some ⟨_, ctes⟩ => ctes

/-! Does the server accept a query? It must nest no aggregates, the names of all
conditions must be found and every derived table taken. What else a server looks
at is not changed by a count query. -/

namespace Engine

mutual

def acceptsFactor (E : Engine Env Scope V) (ctes : List Cte) (outer left : List TableWithJoins) :
    TableFactor → Bool
  | .table _ _ => true
  | .derived lateral subquery _ =>
      acceptsQuery E ctes (if lateral then left else outer) subquery && E.derives ctes subquery
  | .nestedJoin t _ => acceptsTable E ctes outer left t
  | .other _ _ => true
termination_by structural x => x

def acceptsTable (E : Engine Env Scope V) (ctes : List Cte) (outer left : List TableWithJoins) :
    TableWithJoins → Bool
  | ⟨relation, joins⟩ =>
      acceptsFactor E ctes outer left relation &&
        acceptsJoins E ctes outer (left ++ [⟨relation, []⟩]) joins
termination_by structural x => x

def acceptsJoins (E : Engine Env Scope V) (ctes : List Cte) (outer left : List TableWithJoins) :
    List Join → Bool
  | [] => true
  | ⟨relation, _⟩ :: joins =>
      acceptsFactor E ctes outer left relation &&
        acceptsJoins E ctes outer (left ++ [⟨relation, []⟩]) joins
termination_by structural x => x

def acceptsFrom (E : Engine Env Scope V) (ctes : List Cte) (outer left : List TableWithJoins) :
    List TableWithJoins → Bool
  | [] => true
  | t :: ts => acceptsTable E ctes outer left t && acceptsFrom E ctes outer (left ++ [t]) ts
termination_by structural x => x

def acceptsBody (E : Engine Env Scope V) (ctes : List Cte) (outer : List TableWithJoins) :
    SetExpr → Bool
  | .select ⟨_, _, projection, tables, selection, _, _, _, _⟩ =>
      (itemExprs projection).all E.wellNested &&
        E.resolves ctes outer projection tables selection &&
          acceptsFrom E ctes outer outer tables
  | .query q => acceptsQuery E ctes outer q
  | .setOperation _ _ l r => acceptsBody E ctes outer l && acceptsBody E ctes outer r
  | .values _ => true
  | .table _ => true
  | .other _ _ => true
termination_by structural x => x

/-- The common tables of a WITH clause, each behind those before it. -/
def acceptsCtes (E : Engine Env Scope V) (recursive : Bool) (ctes : List Cte)
    (outer : List TableWithJoins) : List Cte → Bool
  | [] => true
  | ⟨name, query⟩ :: more =>
      acceptsQuery E (if recursive then ⟨name, query⟩ :: ctes else ctes) outer query &&
        E.derives ctes query && acceptsCtes E recursive (⟨name, query⟩ :: ctes) outer more
termination_by structural x => x

def acceptsWith (E : Engine Env Scope V) (ctes : List Cte) (outer : List TableWithJoins) :
    Option With → Bool
  | none => true
  | some ⟨recursive, more⟩ => acceptsCtes E recursive ctes outer more
termination_by structural x => x

def acceptsQuery (E : Engine Env Scope V) (ctes : List Cte) (outer : List TableWithJoins) :
    Query → Bool
  | ⟨withClause, body, _, _, _, _⟩ =>
      acceptsWith E ctes outer withClause &&
        acceptsBody E (withTables withClause ++ ctes) outer body
termination_by structural x => x

end

def accepts (E : Engine Env Scope V) (q : Query) : Bool := acceptsQuery E [] [] q

end Engine

/-! ### The clauses of a SELECT -/

variable [DecidableEq V]

namespace Engine

variable (E : Engine Env Scope V) (env : Env) (outer : Scope)

/-- The number of distinct values of an expression on the rows of a group that
are not NULL. -/
def distinctValues (windows : List Expr) (e : Expr) (group : List Scope) : ℕ :=
  (group.filterMap fun row =>
    E.value env outer windows e (group.map ([·])) [row]).dedup.length

/-- The value of an item: `COUNT(*)` counts the rows of the group,
`COUNT(DISTINCT e)` the distinct values of `e`. -/
def evaluate (windows : List Expr) (groups : List (List Scope)) (group : List Scope) :
    Expr → Option V
  | .function name treatment args none [] =>
      if name = [.new "COUNT"] then
        match treatment, args with
        | none, [.wildcard] => some (E.ofNat group.length)
        | some .distinct, [e] => some (E.ofNat (E.distinctValues env outer windows e group))
        | _, _ => E.value env outer windows (.function name treatment args none []) groups group
      else E.value env outer windows (.function name treatment args none []) groups group
  | e => E.value env outer windows e groups group

def item (windows : List Expr) (groups : List (List Scope)) (group : List Scope) :
    SelectItem → Row V
  | .unnamedExpr e => [E.evaluate env outer windows groups group e]
  | .exprWithAlias e _ => [E.evaluate env outer windows groups group e]
  | .qualifiedWildcard name => E.columns env outer (some name) group
  | .wildcard => E.columns env outer none group

/-- Is the SELECT evaluated group by group? -/
def grouped (orderBy : Option OrderBy) (s : Select) : Bool :=
  (match s.groupBy with
    | .all _ => true
    | .expressions exprs _ => !exprs.isEmpty) ||
  s.having.isSome ||
  (itemExprs s.projection ++ onKeys s.distinct ++ orderExprs orderBy).any E.aggregated

/-- The groups of the rows: those of GROUP BY, one of all rows when something
else makes the query grouped, or each row for itself. -/
def groupsOf (orderBy : Option OrderBy) (s : Select) (rows : List Scope) : List (List Scope) :=
  if E.grouped orderBy s then
    let groups :=
      match s.groupBy with
      | .expressions [] _ => [rows]
      | groupBy => E.groups env outer groupBy s.projection rows
    match s.having with
    | some e => groups.filter (E.test env outer s.projection e)
    | none => groups
  else rows.map ([·])

/-- The rows the projection makes of a group: one, unless a function in it
returns a set. -/
def outputs (s : Select) (groups : List (List Scope)) (group : List Scope) :
    List (Output Scope V) :=
  if (itemExprs s.projection ++ onKeys s.distinct).any E.unrolled then
    E.unroll env outer s groups group
  else
    [⟨s.projection.map (E.item env outer s.namedWindow groups group),
      (onKeys s.distinct).map (E.evaluate env outer s.namedWindow groups group), group⟩]

def allOutputs (s : Select) (groups : List (List Scope)) : List (Output Scope V) :=
  groups.flatMap (E.outputs env outer s groups)

def distinctOutputs : Option Distinct → List (Output Scope V) → List (Output Scope V)
  | some .distinct, outs => firstOfEach (·.tuple) outs
  | some (.on _), outs => firstOfEach (·.keys) outs
  | _, outs => outs

def sorted : Option OrderBy → List (Output Scope V) → List (Output Scope V)
  | none, outs => outs
  | some orderBy, outs => E.sort env outer orderBy outs

def topped (orderBy : Option OrderBy) : Option Top → List (Output Scope V) → List (Output Scope V)
  | none, outs => outs
  | some top, outs => E.top env outer top orderBy outs

def limited (orderBy : Option OrderBy) : Option LimitClause → Option Expr →
    List (Output Scope V) → List (Output Scope V)
  | none, none, outs => outs
  | limit, fetch, outs => E.limit env outer orderBy limit fetch outs

/-- The clauses that are only printed, after the projection and after LIMIT. -/
def selectBehind : List Expr → List (Output Scope V) → List (Output Scope V)
  | [], outs => outs
  | rest, outs => E.selectRest env outer rest outs

def queryBehind : List Expr → List (Output Scope V) → List (Output Scope V)
  | [], outs => outs
  | rest, outs => E.queryRest env outer rest outs

/-- The rows of FROM that pass WHERE beside a projection. -/
def passing (items : List SelectItem) (selection : Option Expr) (rows : List Scope) : List Scope :=
  match selection with
  | some e => rows.filter fun row => E.test env outer items e [row]
  | none => rows

/-- A SELECT over the rows of its FROM clause. -/
def select (orderBy : Option OrderBy) (s : Select) (rows : List Scope) : List (Output Scope V) :=
  let groups := E.groupsOf env outer orderBy s (E.passing env outer s.projection s.selection rows)
  let outs := E.selectBehind env outer s.rest (E.allOutputs env outer s groups)
  E.topped env outer orderBy s.top (distinctOutputs s.distinct (E.sorted env outer orderBy outs))

end Engine

def setOperation (op : SetOperator) (quantifier : SetQuantifier) (left right : List (Row V)) :
    List (Row V) :=
  match op, quantifier with
  | .union, .all => left ++ right
  | .intersect, .all => left.bagInter right
  | .except, .all => left.diff right
  | .union, _ => (left ++ right).dedup
  | .intersect, _ => (left.filter (· ∈ right)).dedup
  | .except, _ => (left.filter (· ∉ right)).dedup

/-! ### Queries -/

namespace Engine

mutual

/-- The rows a relation of FROM adds to a row on its left. Only a LATERAL
query sees that row; the projection of the SELECT is `items`. -/
def evalFactor (E : Engine Env Scope V) (env : Env) (outer : Scope) (items : List SelectItem)
    (left : Scope) : TableFactor → List Scope
  | .table name tableAlias => E.table env left name tableAlias
  | .derived lateral subquery tableAlias =>
      (evalQuery E env (if lateral then left else outer) subquery).map (E.bind left tableAlias)
  | .nestedJoin t tableAlias =>
      (evalTable E env outer items left t).map (E.rename left tableAlias)
  | .other form args => E.tableFunction env left items form args

def evalTable (E : Engine Env Scope V) (env : Env) (outer : Scope) (items : List SelectItem)
    (left : Scope) : TableWithJoins → List Scope
  | ⟨relation, joins⟩ =>
      evalJoins E env outer items (evalFactor E env outer items left relation) joins

def evalJoins (E : Engine Env Scope V) (env : Env) (outer : Scope) (items : List SelectItem)
    (rows : List Scope) : List Join → List Scope
  | [] => rows
  | ⟨relation, op⟩ :: joins =>
      evalJoins E env outer items
        (E.join env items op rows fun left => evalFactor E env outer items left relation) joins

def evalFrom (E : Engine Env Scope V) (env : Env) (outer : Scope) (items : List SelectItem)
    (rows : List Scope) : List TableWithJoins → List Scope
  | [] => rows
  | t :: ts =>
      evalFrom E env outer items (rows.flatMap fun left => evalTable E env outer items left t) ts

def evalBody (E : Engine Env Scope V) (env : Env) (outer : Scope) (orderBy : Option OrderBy) :
    SetExpr → List (Output Scope V)
  | .select ⟨distinct, top, projection, tables, selection, groupBy, having, namedWindow, rest⟩ =>
      E.select env outer orderBy
        ⟨distinct, top, projection, tables, selection, groupBy, having, namedWindow, rest⟩
        (evalFrom E env outer projection [outer] tables)
  | .query q => E.sorted env outer orderBy ((evalQuery E env outer q).map .ofRow)
  | .setOperation op quantifier l r =>
      E.sorted env outer orderBy
        ((setOperation op quantifier ((evalBody E env outer none l).map Output.row)
          ((evalBody E env outer none r).map Output.row)).map .ofRow)
  | .values rows => E.sorted env outer orderBy ((E.values env outer rows).map .ofRow)
  | .table name => E.sorted env outer orderBy ((E.tableCommand env name).map .ofRow)
  | .other form args =>
      E.sorted env outer orderBy ((E.otherBody env outer form args).map .ofRow)

def evalCtes (E : Engine Env Scope V) (recursive : Bool) (env : Env) (outer : Scope) :
    List Cte → Env
  | [] => env
  | ⟨name, query⟩ :: ctes =>
      evalCtes E recursive
        (E.define recursive env name fun env => evalQuery E env outer query) outer ctes

/-- The environment behind a WITH clause. -/
def evalWith (E : Engine Env Scope V) (env : Env) (outer : Scope) : Option With → Env
  | none => env
  | some ⟨recursive, ctes⟩ => evalCtes E recursive env outer ctes

/-- The rows of a query. -/
def evalQuery (E : Engine Env Scope V) (env : Env) (outer : Scope) : Query → List (Row V)
  | ⟨withClause, body, orderBy, limitClause, fetch, rest⟩ =>
      let env := evalWith E env outer withClause
      (E.queryBehind env outer rest
        (E.limited env outer orderBy limitClause fetch
          (evalBody E env outer orderBy body))).map Output.row

end

/-! ### Conditions beside a projection -/

mutual

/-- A projection whose aliases no condition names leaves FROM alone. -/
theorem evalFactor_noAlias (E : Engine Env Scope V) (env : Env) (outer : Scope)
    (items : List SelectItem) (left : Scope) (f : TableFactor)
    (h : ∀ e ∈ factorConditions f, E.naming.NamesNoAlias items e) :
    evalFactor E env outer items left f = evalFactor E env outer [] left f := by
  match f with
  | .table _ _ => rfl
  | .derived _ _ _ => rfl
  | .nestedJoin t _ =>
      show (evalTable E env outer items left t).map _ = (evalTable E env outer [] left t).map _
      rw [evalTable_noAlias E env outer items left t h]
  | .other form args =>
      exact E.tableFunction_noAlias env left items form args (h _ (List.mem_singleton_self _))

theorem evalTable_noAlias (E : Engine Env Scope V) (env : Env) (outer : Scope)
    (items : List SelectItem) (left : Scope) (t : TableWithJoins)
    (h : ∀ e ∈ tableConditions t, E.naming.NamesNoAlias items e) :
    evalTable E env outer items left t = evalTable E env outer [] left t := by
  match t with
  | ⟨relation, joins⟩ =>
      show evalJoins E env outer items (evalFactor E env outer items left relation) joins =
        evalJoins E env outer [] (evalFactor E env outer [] left relation) joins
      rw [evalFactor_noAlias E env outer items left relation
          fun e he => h e (List.mem_append_left _ he),
        evalJoins_noAlias E env outer items _ joins fun e he => h e (List.mem_append_right _ he)]

theorem evalJoins_noAlias (E : Engine Env Scope V) (env : Env) (outer : Scope)
    (items : List SelectItem) (rows : List Scope) (joins : List Join)
    (h : ∀ e ∈ joinsConditions joins, E.naming.NamesNoAlias items e) :
    evalJoins E env outer items rows joins = evalJoins E env outer [] rows joins := by
  match joins with
  | [] => rfl
  | ⟨relation, op⟩ :: joins =>
      simp only [joinsConditions, List.mem_append] at h
      have hright (left : Scope) : evalFactor E env outer items left relation =
          evalFactor E env outer [] left relation :=
        evalFactor_noAlias E env outer items left relation fun e he => h e (.inl (.inl he))
      show evalJoins E env outer items (E.join env items op rows fun left =>
          evalFactor E env outer items left relation) joins =
        evalJoins E env outer [] (E.join env [] op rows fun left =>
          evalFactor E env outer [] left relation) joins
      rw [E.join_noAlias env items op _ _ fun e he => h e (.inl (.inr he)),
        evalJoins_noAlias E env outer items _ joins fun e he => h e (.inr he)]
      simp only [hright]

end

theorem evalFrom_noAlias (E : Engine Env Scope V) (env : Env) (outer : Scope)
    (items : List SelectItem) (tables : List TableWithJoins)
    (h : ∀ e ∈ tables.flatMap tableConditions, E.naming.NamesNoAlias items e)
    (rows : List Scope) :
    evalFrom E env outer items rows tables = evalFrom E env outer [] rows tables := by
  induction tables generalizing rows with
  | nil => rfl
  | cons t ts ih =>
      simp only [List.flatMap_cons, List.mem_append] at h
      have htable (left : Scope) : evalTable E env outer items left t =
          evalTable E env outer [] left t :=
        evalTable_noAlias E env outer items left t fun e he => h e (.inl he)
      simp only [evalFrom, htable]
      exact ih (fun e he => h e (.inr he)) _

omit [DecidableEq V] in
theorem passing_noAlias (E : Engine Env Scope V) (env : Env) (outer : Scope)
    (items : List SelectItem) (selection : Option Expr)
    (h : ∀ e ∈ selection.toList, E.naming.NamesNoAlias items e) (rows : List Scope) :
    E.passing env outer items selection rows = E.passing env outer [] selection rows := by
  cases selection with
  | none => rfl
  | some e =>
      have htest (row : Scope) : E.test env outer items e [row] = E.test env outer [] e [row] :=
        E.test_noAlias env outer items e [row] (h e (List.mem_singleton_self e))
      simp only [passing, htest]

/-- The server with another LIMIT. -/
def withLimit (E : Engine Env Scope V)
    (limit : Env → Scope → Option OrderBy → Option LimitClause → Option Expr →
      List (Output Scope V) → List (Output Scope V)) : Engine Env Scope V :=
  { E with limit := limit }

/-- The server with other values, its conditions blind to the projection. -/
def withReading (E : Engine Env Scope V) (test : Expr → List Scope → Bool)
    (value : Expr → List Scope → Option V) : Engine Env Scope V :=
  { E with
    test := fun _ _ _ e group => test e group
    test_noAlias := fun _ _ _ _ _ _ => rfl
    value := fun _ _ _ e _ group => value e group }

end Engine

/-! ### An example -/

namespace Example

/-- Tables of one column, by name. -/
abbrev Tables := List (String × List (Option ℕ))

def column (row : Row ℕ) : Option ℕ := row.getLast?.join

def value (e : Expr) (group : List (Row ℕ)) : Option ℕ :=
  match e with
  | .identifier _ => group.head?.bind column
  | .function _ _ _ _ _ =>
      -- The only function of the examples is SUM.
      match group.filterMap column with
      | [] => none
      | x :: xs => some (x :: xs).sum
  | _ => some 1

/-- A name is a column or one of its spellings in the projection. -/
def naming : Naming where
  namesIn _ := []
  same a b := a.value = b.value

def renamed (name : Ident) : SelectItem → Option Expr
  | .exprWithAlias e given => if naming.same name given then some e else none
  | _ => none

/-- What a condition reads: the only column of the tables, or an alias. -/
def readName (items : List SelectItem) : Expr → Expr
  | .identifier name =>
      if name.value = "x" then .identifier name
      else (items.findSome? (renamed name)).getD (.identifier name)
  | e => e

def found (items : List SelectItem) (name : Ident) : Bool :=
  name.value = "x" || (itemAliases items).any (naming.same name)

theorem readName_noAlias {items : List SelectItem} {e : Expr}
    (h : naming.NamesNoAlias items e) : readName items e = readName [] e := by
  cases e with
  | identifier name =>
      have hnone : items.findSome? (renamed name) = none := by
        rw [List.findSome?_eq_none_iff]
        intro item hitem
        cases item with
        | exprWithAlias e given =>
            have hgiven : given ∈ itemAliases items := List.mem_filterMap.mpr ⟨_, hitem, rfl⟩
            have hother := h name (List.mem_singleton_self name) given hgiven
            simp [renamed, hother]
        | _ => rfl
      simp [readName, hnone]
  | _ => rfl

theorem found_noAlias {items : List SelectItem} {e : Expr} (h : naming.NamesNoAlias items e) :
    (naming.names e).all (found items) = (naming.names e).all (found []) := by
  rw [Bool.eq_iff_iff, List.all_eq_true, List.all_eq_true]
  refine forall₂_congr fun name hname => ?_
  have hnone : (itemAliases items).any (naming.same name) = false := by
    simpa using h name hname
  rw [found, found, hnone]
  rfl

/-- A server that knows SUM and cross joins and reads aliases in conditions. -/
def server : Engine Tables (Row ℕ) ℕ where
  ofNat n := n
  ofNat_injective := fun _ _ h => h
  aggregates name := name = [.new "SUM"]
  setReturning _ := false
  setReturning_count := rfl
  subquery _ := false
  naming := naming
  resolves _ _ items tables selection :=
    (conditions tables selection).all fun e => (naming.names e).all (found items)
  resolves_noAlias _ _ _ _ _ h := by
    rw [Bool.eq_iff_iff, List.all_eq_true, List.all_eq_true]
    exact forall₂_congr fun e he => by rw [found_noAlias (h e he)]
  resolves_of_no_conditions _ _ items tables selection h := by rw [h]; rfl
  uniqueColumns := false
  columnNames _ _ := [.new "x"]
  columnNames_unnamed _ _ _ _ _ _ := rfl
  define _ env name query := (name.value, (query env).map column) :: env
  table env left name _ :=
    ((env.lookup (name.headD (.new "")).value).getD []).map fun x => left ++ [x]
  tableFunction _ _ _ _ _ := []
  tableFunction_noAlias _ _ _ _ _ _ := rfl
  bind left _ row := left ++ row
  rename _ _ row := row
  join _ _ _ rows right := rows.flatMap right
  join_noAlias _ _ _ _ _ _ := rfl
  test _ _ items e group :=
    match e with
    | .isNotNull e => (value (readName items e) group).isSome
    | _ => true
  test_noAlias _ _ items e group h := by
    cases e with
    | isNotNull e =>
        have hname : readName items e = readName [] e := readName_noAlias h
        simp only [hname]
    | _ => rfl
  groups _ _ _ _ rows := (rows.map column).dedup.map fun x => rows.filter (column · = x)
  value _ _ _ e _ group := value e group
  columns _ _ _ group := group.headD []
  unroll _ _ _ _ _ := []
  selectRest _ _ _ outs := outs
  sort _ _ _ outs := outs
  top _ _ _ _ outs := outs
  limit _ _ _ _ _ outs := outs
  queryRest _ _ _ outs := outs
  values _ _ _ := []
  tableCommand _ _ := []
  otherBody _ _ _ _ := []

def x : Expr := .identifier (.new "x")

def sumX : Expr := .function [.new "SUM"] none [x] none []

/-- `SELECT item FROM t`. -/
def selectFrom (distinct : Option Distinct) (item : Expr) : Select where
  distinct := distinct
  top := none
  projection := [.unnamedExpr item]
  «from» := [⟨.table [.new "t"] none, []⟩]
  selection := none
  groupBy := .expressions [] []
  having := none
  namedWindow := []
  rest := []

def queryOf (s : Select) : Query := ⟨none, .select s, none, none, none, []⟩

end Example

end SqlxData.Count
