import SqlxData.Core.Parser
import SqlxData.Params.Params
import SqlxData.Dynamic.Placeholders

/-!
`build_dynamic_sql`: the base statement is parsed, filters, search and cursor
become conditions in the WHERE of every SELECT of its body, ORDER BY and LIMIT
are replaced, and the printed text is numbered anew.
-/

namespace SqlxData.Dynamic

open SqlxData.Sqlparser SqlxData.Core

inductive Backend
  | sqlite
  | postgres
  | mysql
  deriving DecidableEq, Repr

/-- The build: the backend feature, whether integer overflow panics, and
`str::to_lowercase`. -/
structure Config where
  backend : Backend
  overflowChecks : Bool
  toLowercase : String → String

inductive SqlxError
  /-- `shown` is the value the message ends with, in its debug form. -/
  | invalidArgument (msg : String) (shown : Option FilterValue)
  | protocol (msg : String)
  | panic (msg : String)
  deriving DecidableEq

def SqlxError.ofParserError : ParserError → SqlxError
  | .parseSql msg => .protocol msg
  | .validation msg => .protocol msg
  | .invalidArgument msg => .protocol msg

def invalidArgument (msg : String) : SqlxError := .invalidArgument msg none

def overflow : SqlxError := .panic "attempt to add with overflow"

structure BuiltSql where
  sql : List Char
  bindValues : List FilterValue
  deriving DecidableEq

/-! ### Expressions -/

section Expressions

def valueExpr (value : Value) : Expr := .value value

/-- `id` in the source. -/
def idExpr (name : String) : Expr := .identifier (.new name)

def bin (op : BinaryOperator) (left right : Expr) : Expr := .binaryOp left op right

def eq (col : String) (rhs : Expr) : Expr := bin .eq (idExpr col) rhs

def ne (col : String) (rhs : Expr) : Expr := bin .notEq (idExpr col) rhs

def gt (col : String) (rhs : Expr) : Expr := bin .gt (idExpr col) rhs

def lt (col : String) (rhs : Expr) : Expr := bin .lt (idExpr col) rhs

def gte (col : String) (rhs : Expr) : Expr := bin .gtEq (idExpr col) rhs

def lte (col : String) (rhs : Expr) : Expr := bin .ltEq (idExpr col) rhs

def backslash : Value := .singleQuotedString "\\"

/-- MySQL needs no ESCAPE clause. -/
def escapeChar : Backend → Option Value
  | .mysql => none
  | _ => some backslash

def like (backend : Backend) (col : String) (rhs : Expr) (negated : Bool) : Expr :=
  .like negated (idExpr col) rhs (escapeChar backend)

def unsafeLike (col : String) (rhs : Expr) (negated : Bool) : Expr :=
  .like negated (idExpr col) rhs none

def ilike (col : String) (rhs : Expr) (negated : Bool) : Expr :=
  .ilike negated (idExpr col) rhs (some backslash)

def inList (col : String) (values : List Expr) (negated : Bool) : Expr :=
  .inList (idExpr col) values negated

def between (col : String) (low high : Expr) (negated : Bool) : Expr :=
  .between (idExpr col) negated low high

def isNull (col : String) : Expr := .isNull (idExpr col)

def isNotNull (col : String) : Expr := .isNotNull (idExpr col)

def and (left right : Expr) : Expr := bin .and left right

def or (left right : Expr) : Expr := bin .or left right

def containsOr : Expr → Bool
  | .binaryOp left op right =>
      match op with
      | .or => true
      | _ => containsOr left || containsOr right
  | _ => false

def grouped (e : Expr) : Expr := if containsOr e then .nested e else e

def groupedAnd (left right : Expr) : Expr := bin .and (grouped left) (grouped right)

def likeExpr (backend : Backend) (colExpr patternExpr : Expr) : Expr :=
  .like false colExpr patternExpr (escapeChar backend)

def lowerExpr (expr : Expr) : Expr := .function [.new "LOWER"] none [expr] none []

/-- `Iterator::reduce`. -/
def reduce (op : Expr → Expr → Expr) : List Expr → Option Expr
  | [] => none
  | e :: es => some (es.foldl op e)

end Expressions

/-! ### Placeholders and binding -/

/-- The bind values and the number of the next placeholder. -/
structure BindState where
  bindValues : List FilterValue
  n : UInt8

abbrev BuildM := StateT BindState (Except SqlxError)

/-- `a + b` in an eight-bit type. -/
def addU8 (cfg : Config) (a b : UInt8) : Except SqlxError UInt8 :=
  if cfg.overflowChecks ∧ a.toNat + b.toNat ≥ 2 ^ 8 then .error overflow else .ok (a + b)

def addU32 (cfg : Config) (a b : UInt32) : Except SqlxError UInt32 :=
  if cfg.overflowChecks ∧ a.toNat + b.toNat ≥ 2 ^ 32 then .error overflow else .ok (a + b)

/-- One call of the generator `make_generator` returns. -/
def nextPlaceholder (cfg : Config) (n : UInt8) : Except SqlxError (String × UInt8) :=
  match cfg.backend with
  | .mysql => .ok ("?", n)
  | _ => do
      let next ← addU8 cfg n 1
      .ok ("$" ++ toString n.toNat, next)

/-- The `bind` closure: the value is pushed, then a placeholder is taken. -/
def bind (cfg : Config) (v : FilterValue) : BuildM Expr := fun s => do
  let (placeholder, n) ← nextPlaceholder cfg s.n
  .ok (valueExpr (.placeholder placeholder (.pushed v)), ⟨s.bindValues ++ [v], n⟩)

/-! ### Filters, search and cursor -/

def arrayRequired (operator : String) (value : FilterValue) : SqlxError :=
  .invalidArgument (operator ++ " operator requires an array of values, got ") (some value)

/-- The IN and NOT IN filters, which differ in the name in their messages. -/
def inListFilter (cfg : Config) (operator : String) (filter : Filter) : BuildM Expr :=
  match filter.value with
  | .array arr =>
      if arr.isEmpty then
        throw (invalidArgument (operator ++ " operator requires at least 1 value, got empty array"))
      else do
        let placeholders ← arr.mapM (bind cfg)
        return inList filter.field placeholders filter.not
  | value => throw (arrayRequired operator value)

def filterExpr (cfg : Config) (filter : Filter) : BuildM Expr :=
  match filter.operator with
  | .eq => return eq filter.field (← bind cfg filter.value)
  | .ne => return ne filter.field (← bind cfg filter.value)
  | .gt => return gt filter.field (← bind cfg filter.value)
  | .gte => return gte filter.field (← bind cfg filter.value)
  | .lt => return lt filter.field (← bind cfg filter.value)
  | .lte => return lte filter.field (← bind cfg filter.value)
  | .like => return like cfg.backend filter.field (← bind cfg filter.value) filter.not
  | .unsafeLike => return unsafeLike filter.field (← bind cfg filter.value) filter.not
  | .iLike =>
      match cfg.backend with
      | .postgres => return ilike filter.field (← bind cfg filter.value) filter.not
      | backend => do
          let lowerPatternValue := match filter.value with
            | .string s => .string (cfg.toLowercase s)
            | other => other
          return likeExpr backend (lowerExpr (idExpr filter.field)) (← bind cfg lowerPatternValue)
  | .between =>
      match filter.value with
      | .array [low, high] => do
          let lowPh ← bind cfg low
          let highPh ← bind cfg high
          return between filter.field lowPh highPh filter.not
      | .array arr =>
          throw (invalidArgument
            ("Between operator requires exactly 2 values, got " ++ toString arr.length))
      | value => throw (arrayRequired "Between" value)
  | .isNull => return isNull filter.field
  | .isNotNull => return isNotNull filter.field
  | .in => inListFilter cfg "In" filter
  | .notIn => inListFilter cfg "NotIn" filter
  | .contains =>
      match filter.value with
      | .string s => do
          let patternExpr ← bind cfg (.string ("%" ++ s ++ "%"))
          return like cfg.backend filter.field patternExpr filter.not
      | _ => throw (invalidArgument "Contains operator only supports string values")

def searchFieldExpr (cfg : Config) (search : SearchParams) (patternString field : String) :
    BuildM Expr := do
  let ph ← bind cfg (.string patternString)
  if search.caseSensitive then
    return like cfg.backend field ph false
  else
    return likeExpr cfg.backend (lowerExpr (idExpr field)) (lowerExpr ph)

/-- The conditions of a search, one for each field. -/
def searchExprs (cfg : Config) (search : SearchParams) : BuildM (List Expr) :=
  if !search.fields.isEmpty && !search.query.isEmpty then
    let patternString := if search.exactMatch then search.query else "%" ++ search.query ++ "%"
    search.fields.mapM (searchFieldExpr cfg search patternString)
  else
    return []

def cursorOperator : CursorDirection → Bool → BinaryOperator
  | .after, true => .gt
  | .after, false => .lt
  | .before, true => .lt
  | .before, false => .gt

/-- `field OP value OR (field = value AND rest)`; the rest is put in
parentheses unless it is the comparison of the last field. -/
def cursorAlternative (direction : CursorDirection) (sort : SortField) (value eqValue rest : Expr)
    (restIsLast : Bool) : Expr :=
  or (bin (cursorOperator direction sort.isAsc) (idExpr sort.field) value)
    (.nested (and (bin .eq (idExpr sort.field) eqValue)
      (if restIsLast then rest else .nested rest)))

/-- The placeholder of the equality. MySQL cannot read a placeholder twice, so
there the value is bound again. -/
def eqPlaceholder (cfg : Config) (cursorValue : FilterValue) (value : Expr) : BuildM Expr :=
  if cfg.backend = .mysql then bind cfg cursorValue else return value

/-- The sort fields and the cursor values from `index` on. -/
def buildCursorConditionRecursive (cfg : Config) (direction : CursorDirection) :
    List SortField → List FilterValue → BuildM Expr
  | [], _ => throw (invalidArgument "Index out of bounds in cursor condition")
  | _ :: _, [] => throw (.panic "index out of bounds")
  | [sort], cursorValue :: _ => do
      let value ← bind cfg cursorValue
      return bin (cursorOperator direction sort.isAsc) (idExpr sort.field) value
  | sort :: sort' :: sorts, cursorValue :: values => do
      let value ← bind cfg cursorValue
      let restCondition ← buildCursorConditionRecursive cfg direction (sort' :: sorts) values
      let eqValue ← eqPlaceholder cfg cursorValue value
      return cursorAlternative direction sort value eqValue restCondition sorts.isEmpty

def buildOrBasedCursorCondition (cfg : Config) (sorts : List SortField) (cursor : CursorParams)
    (direction : CursorDirection) : BuildM Expr :=
  buildCursorConditionRecursive cfg direction sorts cursor.values

def cursorExpr (cfg : Config) (sortBy : Option SortingParams) (cursor : CursorParams) :
    BuildM Expr :=
  if cursor.hasError then
    throw (invalidArgument ("Cursor decode failed: " ++ cursor.error.getD "unknown error"))
  else
    match sortBy with
    | none =>
        throw (invalidArgument
          "Cursor pagination requires ORDER BY clause to be defined in sort_by")
    | some sortBy =>
        if sortBy.sorts.length ≠ cursor.len then
          throw (invalidArgument ("Number of cursor values (" ++ toString cursor.len ++
            ") must match number of sort fields (" ++ toString sortBy.sorts.length ++ ")"))
        else
          match cursor.direction with
          | none => throw (invalidArgument "Cursor pagination is missing direction")
          | some direction =>
              match sortBy.sorts, cursor.values with
              | [sort], [cursorValue] => do
                  let value ← bind cfg cursorValue
                  return bin (cursorOperator direction sort.isAsc) (idExpr sort.field) value
              | sorts, _ => buildOrBasedCursorCondition cfg sorts cursor direction

/-! ### SELECT, set expressions and the query -/

/-- The conditions of `process_select` before they are combined. -/
structure DynamicParts where
  filters : List Expr
  search : List Expr
  cursor : Option Expr

def filterExprs (cfg : Config) : Option FilterParams → BuildM (List Expr)
  | some filterParams => filterParams.filters.mapM (filterExpr cfg)
  | none => return []

def searchCondition (cfg : Config) : Option SearchParams → BuildM (List Expr)
  | some search => searchExprs cfg search
  | none => return []

def cursorCondition (cfg : Config) (sortBy : Option SortingParams) :
    Option Pagination → BuildM (Option Expr)
  | some (.cursor cursor) => do
      if cursor.isEmpty then
        return none
      else
        let condition ← cursorExpr cfg sortBy cursor
        return some condition
  | _ => return none

def dynamicParts (cfg : Config) (params : Params) : BuildM DynamicParts := do
  let filters ← filterExprs cfg params.filters
  let search ← searchCondition cfg params.search
  let cursor ← cursorCondition cfg params.sortBy params.pagination
  return ⟨filters, search, cursor⟩

/-- The parts joined; an OR is put in parentheses where it meets another
part. -/
def DynamicParts.combined (parts : DynamicParts) : Option Expr :=
  reduce groupedAnd
    ((reduce and parts.filters).toList ++ (reduce or parts.search).toList ++ parts.cursor.toList)

/-- The selection of a SELECT with the dynamic condition added. -/
def withDynamicWhere (selection : Option Expr) (dynamicWhere : Option Expr) : Option Expr :=
  match selection, dynamicWhere with
  | selection, none => selection
  | none, some combined => some combined
  | some existing, some combined => some (and existing (grouped combined))

def processSelect (cfg : Config) (params : Params) (select : Select) : BuildM Select := do
  let parts ← dynamicParts cfg params
  return { select with selection := withDynamicWhere select.selection parts.combined }

def processSetExpr (cfg : Config) (params : Params) : SetExpr → BuildM SetExpr
  | .select select => return .select (← processSelect cfg params select)
  | .setOperation op quantifier left right => do
      let left ← processSetExpr cfg params left
      let right ← processSetExpr cfg params right
      return .setOperation op quantifier left right
  | .query ⟨ctes, body, orderBy, limitClause, fetch, rest⟩ => do
      let body ← processSetExpr cfg params body
      return .query ⟨ctes, body, orderBy, limitClause, fetch, rest⟩
  | .values rows => return .values rows
  | .table name => return .table name
  | .other form args => return .other form args

/-- ORDER BY is inverted for a cursor that goes backwards. -/
def shouldInvertOrder (params : Params) : Bool :=
  match params.pagination with
  | some (.cursor cursor) => cursor.direction = some .before
  | _ => false

def orderByOf (sorts : List SortField) (invert : Bool) : OrderBy :=
  { kind := .expressions (sorts.map fun s =>
      { expr := idExpr s.field
        options :=
          { asc := some (if invert then !s.isAsc else s.isAsc), nullsFirst := s.nullsAsBool }
        withFill := none })
    interpolate := none }

def orderByFor (params : Params) (existing : Option OrderBy) : Option OrderBy :=
  match params.sortBy with
  | some sortBy =>
      if !sortBy.sorts.isEmpty then some (orderByOf sortBy.sorts (shouldInvertOrder params))
      else existing
  | none => existing

def numberExpr (n : ℕ) : Expr := valueExpr (.number (toString n) false)

def limitExprOf (cfg : Config) (params : Params) : Except SqlxError (Option Expr) :=
  match params.limit with
  | some limit => do
      let actualLimit ← addU32 cfg limit params.limitPlusOne
      .ok (some (numberExpr actualLimit.toNat))
  | none => .ok none

def offsetExprOf (params : Params) : Option Offset :=
  params.offset.map fun offset => { value := numberExpr offset.toNat, rows := .none }

def limitClauseOf (cfg : Config) (params : Params) (existing : Option LimitClause) :
    Except SqlxError (Option LimitClause) := do
  let limitExpr ← limitExprOf cfg params
  let offsetExpr := offsetExprOf params
  if limitExpr.isSome || offsetExpr.isSome then
    .ok (some (.limitOffset limitExpr offsetExpr []))
  else
    .ok existing

def startIndex (bindCount maxExistingPlaceholder : ℕ) : UInt8 :=
  if maxExistingPlaceholder > 0 then UInt8.ofNat maxExistingPlaceholder else UInt8.ofNat bindCount

def processQuery (cfg : Config) (query : Query) (params : Params)
    (bindValues : List FilterValue) (maxExistingPlaceholder : ℕ) :
    Except SqlxError (Query × List FilterValue) := do
  let n ← addU8 cfg (startIndex bindValues.length maxExistingPlaceholder) 1
  let (body, s) ← (processSetExpr cfg params query.body).run ⟨bindValues, n⟩
  let orderBy := orderByFor params query.orderBy
  let limitClause ← limitClauseOf cfg params query.limitClause
  .ok ({ query with body := body, orderBy := orderBy, limitClause := limitClause }, s.bindValues)

/-! ### Building -/

/-- The statement that is printed and its bind values. -/
def dynamicStatement (cfg : Config) (statement : Statement) (params : Params)
    (bindValues : List FilterValue) (maxExistingPlaceholder : ℕ) :
    Except SqlxError (Statement × List FilterValue) :=
  if params.isEmpty then
    .ok (statement, bindValues)
  else
    match statement with
    | .query query => do
        let (query, bindValues) ← processQuery cfg query params bindValues maxExistingPlaceholder
        .ok (.query query, bindValues)
    | .other _ => .error (.protocol "Only SELECT and INSERT statements are supported")

/-- The bind values and numbers of the base text, those of a replaced
LIMIT/OFFSET left out. -/
def baseBinds (baseSql : List Char) (statement : Statement) (params : Params)
    (initialBinds : List FilterValue) : List FilterValue × List ℕ :=
  match statement with
  | .query query =>
      let (binds, trimmedPositions) :=
        if params.limit.isSome || params.offset.isSome then
          trimLimitOffsetPlaceholderBinds query initialBinds
        else
          (initialBinds, [])
      (binds, (collectNumberedPlaceholders baseSql).filter (· ∉ trimmedPositions))
  | .other _ => (initialBinds, [])

def maxPlaceholder (placeholderNumbers : List ℕ) : ℕ := placeholderNumbers.foldl max 0

def buildDynamicSql (cfg : Config) (D : Display) (parser : Parser) (baseSql : List Char)
    (params : Params) (initialBinds : List FilterValue) : Except SqlxError BuiltSql := do
  let statementOpt ← (parseSql parser baseSql).mapError .ofParserError
  match statementOpt with
  | none => .error (.protocol ("Failed to parse SQL: \x60" ++ String.ofList baseSql ++ "\x60"))
  | some statement =>
      let (bindValues, originalNumbers) := baseBinds baseSql statement params initialBinds
      let maxExisting := maxPlaceholder originalNumbers
      let (statement, bindValues) ←
        dynamicStatement cfg statement params bindValues maxExisting
      let (sql, bindValues) := renumberNumberedPlaceholdersWithBinds bindValues originalNumbers
        maxExisting (render (D.statement statement))
      .ok ⟨sql, bindValues⟩

/-! ### Builds and a request for the examples -/

namespace Example

def build (backend : Backend) : Config := ⟨backend, true, id⟩

/-- The filter `city = 'Bonn'`. -/
def inBonn : Params :=
  { Params.default with filters := some ⟨[⟨"city", .eq, .string "Bonn", false⟩]⟩ }

end Example

end SqlxData.Dynamic
