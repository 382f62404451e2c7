import SqlxData.Core.Cache
import SqlxData.Count.CountArgs
import SqlxData.Count.PlainCount
import SqlxData.Dynamic.Renumbering
import SqlxData.Paging.OffsetPages

/-!
Serial pages against a server. The generated method sends two statements for a
page, the data query with LIMIT and OFFSET and the count query made of its text;
both are read and run by one server. The pages are the pieces of what the data
query returns without its window, and the totals are those of that result.
-/

namespace SqlxData.Paging

open SqlxData.Sqlparser SqlxData.Core SqlxData.Count SqlxData.Dynamic

/-! ### Servers -/

/-- A server: an engine for every list of bind values, and the integers of the
server as an `i64`. LIMIT and OFFSET cut a window out of the rows, ORDER BY
rearranges them. -/
structure Server (Env Scope V : Type) where
  engine : List FilterValue → Engine Env Scope V
  env : Env
  outer : Scope
  decode : V → Option Int64
  decode_ofNat : ∀ binds n, n < 2 ^ 63 → decode ((engine binds).ofNat n) = some (Int64.ofNat n)
  limit_window : ∀ binds env outer orderBy count offset outs,
    (engine binds).limit env outer orderBy (some (windowClause count offset)) none outs =
      (outs.drop offset.toNat).take count
  sort_perm : ∀ binds env outer orderBy outs,
    ((engine binds).sort env outer orderBy outs).Perm outs

section Engine

variable {Env Scope V : Type} (E : Engine Env Scope V)

/-- The query without its window. -/
def unwindowed (q : Query) : Query := { q with limitClause := none }

/-- The query with the window of a page. -/
def windowed (q : Query) (count : ℕ) (offset : UInt32) : Query :=
  { q with limitClause := some (windowClause count offset) }

/-- ORDER BY calls no aggregate. -/
def PlainOrder (q : Query) : Prop := (orderExprs q.orderBy).any E.aggregated = false

/-- The window is no part of what is counted. -/
theorem countStatement_windowed (q : Query) (count : ℕ) (offset : UInt32) :
    countStatement (windowed q count offset) none = countStatement q none := rfl

variable {E}

theorem length_sorted (hsort : ∀ env outer orderBy outs,
    (E.sort env outer orderBy outs).Perm outs) (env : Env) (outer : Scope)
    (orderBy : Option OrderBy) (outs : List (Output Scope V)) :
    (E.sorted env outer orderBy outs).length = outs.length := by
  cases orderBy with
  | none => rfl
  | some orderBy => exact (hsort env outer orderBy outs).length_eq

variable [DecidableEq V]

/-- A window on the result of a query is the window of its rows. -/
theorem evalQuery_windowed (env : Env) (outer : Scope) {q : Query} {count : ℕ} {offset : UInt32}
    (hrest : q.rest = []) (hfetch : q.fetch = none)
    (hlimit : ∀ env outer orderBy outs,
      E.limit env outer orderBy (some (windowClause count offset)) none outs =
        (outs.drop offset.toNat).take count) :
    E.evalQuery env outer (windowed q count offset) =
      ((E.evalQuery env outer (unwindowed q)).drop offset.toNat).take count := by
  obtain ⟨withClause, body, orderBy, limitClause, fetch, rest⟩ := q
  obtain rfl : rest = [] := hrest
  obtain rfl : fetch = none := hfetch
  show (E.limit _ outer orderBy (some (windowClause count offset)) none
      (E.evalBody _ outer orderBy body)).map Output.row =
    (((E.evalBody _ outer orderBy body).map Output.row).drop offset.toNat).take count
  rw [hlimit, List.map_take, List.map_drop]

omit [DecidableEq V] in
/-- A server that takes a query takes it with a window. -/
theorem accepts_windowed (q : Query) (count : ℕ) (offset : UInt32) :
    E.accepts (windowed q count offset) = E.accepts (stripped q) := by
  cases q
  rfl

/-- Sorting neither adds rows to a query nor takes any away, as long as it
does not group them. -/
theorem length_unwindowed (hsort : ∀ env outer orderBy outs,
    (E.sort env outer orderBy outs).Perm outs) (env : Env) (outer : Scope) {q : Query}
    (hplain : PlainQuery E q) (hfetch : q.fetch = none) (horder : PlainOrder E q) :
    (E.evalQuery env outer (unwindowed q)).length =
      (E.evalQuery env outer (stripped q)).length := by
  have hunwindowed : E.evalQuery env outer (unwindowed q) =
      (E.evalBody (E.evalWith env outer q.with) outer q.orderBy q.body).map Output.row := by
    obtain ⟨withClause, body, orderBy, limitClause, fetch, rest⟩ := q
    obtain rfl : rest = [] := hplain.rest
    obtain rfl : fetch = none := hfetch
    rfl
  rw [hunwindowed, evalQuery_stripped E env outer hplain.rest, List.length_map, List.length_map]
  generalize E.evalWith env outer q.with = behind
  cases hbody : q.body with
  | select s =>
      obtain ⟨hdistinct, htop, -, -, -, hrest⟩ := hplain.select s hbody
      have hgrouped : E.grouped q.orderBy s = E.grouped none s := by
        have hordered : (orderExprs q.orderBy).any E.aggregated = false := horder
        have hunordered : (orderExprs none).any E.aggregated = false := rfl
        simp only [Engine.grouped, List.any_append, hordered, hunordered]
      have hgroups (rows : List Scope) :
          E.groupsOf behind outer q.orderBy s rows = E.groupsOf behind outer none s rows := by
        rw [Engine.groupsOf, Engine.groupsOf, hgrouped]
      rw [evalBody_select, evalBody_select, Engine.select, Engine.select, hgroups]
      simp only [hdistinct, htop, hrest, Engine.topped, Engine.distinctOutputs,
        Engine.selectBehind]
      exact length_sorted hsort behind outer q.orderBy _
  | _ => exact length_sorted hsort behind outer q.orderBy _

end Engine

/-! ### The statements of the pages -/

section Pages

variable {Row : Type} {m : PagedMethod Row} {params : Params} {pagination pagination' : Pagination}
  {limit offset offset' : UInt32}

/-- The rows a page asks for. -/
def askedRows (params : Params) (pagination : Pagination) (limit offset : UInt32) : ℕ :=
  (limit + (windowRequest params pagination limit offset).limitPlusOne).toNat

/-- The same request with another offset: the same query but for its window,
and the same bind values. -/
theorem statement_window (hcursor : pagination.isCursor = false)
    (hcursor' : pagination'.isCursor = false)
    (hplus : (windowRequest params pagination limit offset).limitPlusOne =
      (windowRequest params pagination' limit offset').limitPlusOne)
    {q q' : Query} {binds : List FilterValue}
    (h : m.statement q (windowRequest params pagination limit offset) = .ok (.query q', binds)) :
    m.statement q (windowRequest params pagination' limit offset') =
      .ok (.query (windowed q' (askedRows params pagination limit offset) offset'), binds) := by
  obtain ⟨base, maxExisting, hbase, hmax, heq⟩ := m.statement_eq
    (@isEmpty_windowRequest params pagination limit offset) q
  obtain ⟨_, _, rfl, rfl, heq'⟩ := m.statement_eq
    (@isEmpty_windowRequest params pagination' limit offset') q
  have hsame : baseBinds m.baseSql (.query q) (windowRequest params pagination' limit offset')
      m.initialBinds = base := hbase
  rw [hsame, ← hmax] at heq'
  rw [heq] at h
  cases hcase : processQuery m.cfg q (windowRequest params pagination limit offset) base.1
      maxExisting with
  | error err => rw [hcase] at h; cases h
  | ok processed =>
      rw [hcase] at h
      obtain ⟨hprinted, rfl⟩ := Prod.mk.inj (Except.ok.inj h)
      obtain rfl := Statement.query.inj hprinted
      rw [heq', processQuery_window hcursor hcursor' hplus hcase]
      rfl

theorem build_of_statement {q q' : Query} {binds : List FilterValue}
    (hparse : parseSql m.parser m.baseSql = .ok (some (.query q)))
    (h : m.statement q params = .ok (.query q', binds)) :
    m.build params = .ok
      (let numbers := (baseBinds m.baseSql (.query q) params m.initialBinds).2
       let renumbered := renumberNumberedPlaceholdersWithBinds binds numbers
         (maxPlaceholder numbers) (render (m.display.query q'))
       ⟨renumbered.1, renumbered.2⟩) := by
  have hprinted : dynamicStatement m.cfg (.query q) params
      (baseBinds m.baseSql (.query q) params m.initialBinds).1
      (maxPlaceholder (baseBinds m.baseSql (.query q) params m.initialBinds).2) =
        .ok (.query q', binds) := h
  rw [PagedMethod.build, buildDynamicSql]
  simp only [hparse, Except.mapError, Bind.bind, Except.bind, hprinted]
  rfl

/-- The numbers of LIMIT and OFFSET are no placeholders. -/
theorem numbers_windowClause (D : Display) (count : ℕ) (offset : UInt32) :
    (D.limitClause (some (windowClause count offset))).flatMap
      (fun t => placeholderNumbers t.text) = [] := by
  have hnumber (n : ℕ) : placeholderNumbers (toString n).toList = [] := by
    refine NumberedText.numbers_pieces_of_plain fun hdollar => ?_
    have := NumberedText.isDigit_of_mem_toString hdollar
    simp at this
  obtain ⟨rest, hclause, hrest⟩ := D.limitClause_limitOffset (some (numberExpr count))
    (some { value := numberExpr offset.toNat, rows := .none }) []
  obtain rfl := hrest ⟨rfl, by simp⟩
  rw [windowClause, hclause]
  have hwords : placeholderNumbers " LIMIT ".toList = [] ∧
      placeholderNumbers " OFFSET ".toList = [] := by decide
  simp only [Option.elim, numberExpr, valueExpr, D.expr_number, List.flatMap_append,
    List.flatMap_cons, List.flatMap_nil, Tok.text_word, hnumber, hwords.1, hwords.2,
    List.append_nil]

theorem placeholderNumbers_windowed (D : Display) (q : Query) (count count' : ℕ)
    (offset offset' : UInt32) :
    placeholderNumbers (render (D.query (windowed q count offset))) =
      placeholderNumbers (render (D.query (windowed q count' offset'))) := by
  rw [placeholderNumbers_render (D.separated _), placeholderNumbers_render (D.separated _),
    D.query_eq, D.query_eq (windowed q count' offset')]
  simp only [windowed, List.flatMap_append, numbers_windowClause]

/-- The text of the count query of a page. -/
theorem countQueryFromSql_windowed {q : Query} {sql : List Char} {count : ℕ} {offset : UInt32}
    (hparse : parseSql m.parser sql = .ok (some (.query (windowed q count offset)))) :
    countQueryFromSql m.display m.parser sql =
      .ok (render (m.display.query (countStatement q none))) := by
  rw [countQueryFromSql, parsedForCount, hparse, ← countStatement_windowed q count offset,
    ← generateCountQuery_eq]
  rfl

/-- All pages of a request are built when one is; they have the same bind
values. -/
theorem build_window (hcursor : pagination.isCursor = false) {built : BuiltSql}
    (hbuilt : m.build (windowRequest params pagination limit offset) = .ok built) :
    ∃ q', ∀ pagination' offset', pagination'.isCursor = false →
      (windowRequest params pagination limit offset).limitPlusOne =
        (windowRequest params pagination' limit offset').limitPlusOne →
      m.Emits (windowRequest params pagination' limit offset')
        (windowed q' (askedRows params pagination limit offset) offset') ∧
      ∃ built', m.build (windowRequest params pagination' limit offset') = .ok built' ∧
        built'.bindValues = built.bindValues := by
  obtain ⟨q', q, binds, hparse, hstatement⟩ := PagedMethod.exists_emits isEmpty_windowRequest hbuilt
  refine ⟨q', fun pagination' offset' hcursor' hplus => ?_⟩
  have hpage := statement_window hcursor hcursor' hplus hstatement
  refine ⟨⟨q, binds, hparse, hpage⟩, _, build_of_statement hparse hpage, ?_⟩
  -- the page that was built has the same window up to its offset
  have hfirst := build_of_statement hparse (statement_window hcursor hcursor rfl hstatement)
  obtain rfl := Except.ok.inj (hbuilt.symm.trans hfirst)
  have hbase : baseBinds m.baseSql (.query q) (windowRequest params pagination' limit offset')
      m.initialBinds = baseBinds m.baseSql (.query q)
        (windowRequest params pagination limit offset) m.initialBinds := rfl
  have horder : numberOrder (render (m.display.query
      (windowed q' (askedRows params pagination limit offset) offset'))) =
      numberOrder (render (m.display.query
        (windowed q' (askedRows params pagination limit offset) offset))) := by
    rw [numberOrder_eq, numberOrder_eq, placeholderNumbers_windowed _ q' _ _ offset' offset]
  simp only [hbase, renumberNumberedPlaceholdersWithBinds_eq, horder]
  split <;> rfl

end Pages

/-! ### A method in front of a server -/

inductive ServedError
  | sqlx (error : SqlxError)
  | page (error : PageError)
  | database

section Method

variable {Env Scope V : Type} [DecidableEq V]

namespace Server

variable (server : Server Env Scope V)

/-- The server reads a text as the parser of the build does. -/
def run (parser : Parser) (sql : List Char) (args : List FilterValue) :
    Except ServedError (List (Row V)) :=
  match parseSql parser sql with
  | .ok (some (.query q)) =>
      match (server.engine args).run server.env server.outer q with
      | some rows => .ok rows
      | none => .error .database
  | _ => .error .database

/-- The one value of a count query, as an `i64`. -/
def runScalar (parser : Parser) (sql : List Char) (args : List FilterValue) :
    Except ServedError Int64 := do
  match ← server.run parser sql args with
  | [[some v]] =>
      match server.decode v with
      | some n => .ok n
      | none => .error .database
  | _ => .error .database

/-- The values the count query is sent with. -/
def countArgs (backend : Backend) (countSql : List Char) (bindValues : List FilterValue) :
    List FilterValue :=
  if backend = .mysql then bindValues.take (countSql.count '?') else bindValues

/-- The body of a method that returns `Serial`, its two statements answered by
the server. -/
def fetchSerial (m : PagedMethod (Row V)) (params : Params) :
    Except ServedError (Serial (Row V)) := do
  (validateFields params).mapError .sqlx
  let builtSql ← (m.build params).mapError .sqlx
  let args ← (Count.bindFilterValues builtSql.bindValues).mapError .page
  let data ← server.run m.parser builtSql.sql args
  let countSql ← (countQueryFromSql m.display m.parser builtSql.sql).mapError
    fun err => .page (.parser err)
  let countArgs ←
    (Count.bindFilterValues (countArgs m.cfg.backend countSql builtSql.bindValues)).mapError .page
  let totalElements ← server.runScalar m.parser countSql countArgs
  .ok (Serial.new data params totalElements)

end Server

/-- A query every page of which the server counts: it is plain, the server takes
it and, where it is counted as it stands, takes it as a derived table; where its
projection goes no condition names an alias. -/
structure Countable (E : Engine Env Scope V) (q : Query) : Prop where
  plain : PlainQuery E q
  order : PlainOrder E q
  fetch : q.fetch = none
  accepted : E.accepts (stripped q) = true
  derived : (∀ s, ¬Replaced q s) → E.derivesBody q = true
  aliases : ∀ s, Replaced q s → NamesNoAlias E s

/-- The statements of the pages are read back as one query, up to the window
that was printed, and so is the count query. -/
structure RereadsPages {Row : Type} (m : PagedMethod Row) (request : UInt32 → Params)
    (q : Query) : Prop where
  page : ∀ p built q', m.build (request p) = .ok built → m.Emits (request p) q' →
    parseSql m.parser built.sql = .ok (some (.query { q with limitClause := q'.limitClause }))
  count : parseSql m.parser (render (m.display.query (countStatement q none))) =
    .ok (some (.query (countStatement q none)))

variable {server : Server Env Scope V} {m : PagedMethod (Row V)} {params : Params}
  {perPage : UInt32} {q : Query}

/-- The total of a page: the number of rows of the query without its window. -/
theorem runScalar_countStatement {args : List FilterValue}
    (hcount : parseSql m.parser (render (m.display.query (countStatement q none))) =
      .ok (some (.query (countStatement q none))))
    (hq : Countable (server.engine args) q)
    (hsize : ((server.engine args).evalQuery server.env server.outer
      (unwindowed q)).length < 2 ^ 63) :
    server.runScalar m.parser (render (m.display.query (countStatement q none))) args =
      .ok (Int64.ofNat ((server.engine args).evalQuery server.env server.outer
        (unwindowed q)).length) := by
  have hagrees : CountAgrees (server.engine args) server.env server.outer q :=
    (countAgrees_iff_of_plain _ _ _ hq.plain hq.accepted).mpr ⟨hq.derived, fun s hs =>
      standsAlone_of_namesNoAlias _ _ _ hq.accepted hs.1 (hq.aliases s hs)⟩
  rw [CountAgrees, ← length_unwindowed (server.sort_perm args) _ _ hq.plain hq.fetch hq.order]
    at hagrees
  simp only [Server.runScalar, Server.run, hcount, hagrees, Bind.bind, Except.bind,
    server.decode_ofNat args _ hsize]

/-- The rows of a page: the window of the rows of the query without one. -/
theorem run_windowed {sql : List Char} {args : List FilterValue} {count : ℕ} {offset : UInt32}
    (hparse : parseSql m.parser sql = .ok (some (.query (windowed q count offset))))
    (hq : Countable (server.engine args) q) :
    server.run m.parser sql args =
      .ok ((((server.engine args).evalQuery server.env server.outer (unwindowed q)).drop
        offset.toNat).take count) := by
  have haccepts := (accepts_windowed q count offset).trans hq.accepted
  have hlimit := fun env outer orderBy => server.limit_window args env outer orderBy count offset
  have hrows := evalQuery_windowed server.env server.outer hq.plain.rest hq.fetch hlimit
  simp only [Server.run, hparse, Engine.run, haccepts, if_true, hrows]

end Method

/-! ### Four rows behind a server -/

namespace CountedExample

open OffsetExample Reference Count.Example

abbrev listing : Query := OffsetExample.users

/-- Reads the listing, with and without a window of three rows, and its count. -/
def readUsers : Parser := fun sql =>
  if "SELECT * FROM users LIMIT 3 OFFSET ".toList.isPrefixOf sql then
    some [.query (windowed listing 3 (UInt32.ofNat (Nat.ofDigitChars 10 (sql.drop 35) 0)))]
  else if sql = text listing then some [.query listing]
  else if sql = text (countStatement listing none) then
    some [.query (countStatement listing none)]
  else none

def listRows : PagedMethod (Row ℕ) where
  cfg := Dynamic.Example.build .postgres
  display := .reference
  parser := readUsers
  baseSql := text listing
  initialBinds := []
  database _ _ := []
  totalElements _ _ := .ok 0

def usersServer : Server Tables (Row ℕ) ℕ where
  engine _ := Count.Example.server.withLimit fun _ _ _ clause _ outs => windowOf clause outs
  env := [("users", [some 1, some 2, some 3, some 4])]
  outer := []
  decode n := some (Int64.ofNat n)
  decode_ofNat _ _ _ := rfl
  limit_window _ _ _ _ _ _ _ := windowOf_windowClause _ _ _
  sort_perm _ _ _ _ _ := .refl _

theorem readUsers_windowText (offset : UInt32) :
    readUsers (windowText offset) = some [.query (windowed listing 3 offset)] := by
  have hprefix : "SELECT * FROM users LIMIT 3 OFFSET ".toList.isPrefixOf (windowText offset) := by
    rw [List.isPrefixOf_iff_prefix]
    exact List.prefix_append _ _
  have hdigits : (windowText offset).drop 35 = (toString offset.toNat).toList :=
    List.drop_left' (by decide)
  have hnumber : Nat.ofDigitChars 10 (toString offset.toNat).toList 0 = offset.toNat := by
    simp [Nat.toString_eq_repr, Nat.toList_repr, Nat.ofDigitChars_ten_toDigits]
  rw [readUsers, if_pos hprefix, hdigits, hnumber, UInt32.ofNat_toNat]

theorem parse_users : parseSql readUsers (text listing) = .ok (some (.query listing)) := by
  have hread : readUsers (text listing) = some [.query listing] := by
    rw [readUsers, if_neg (by decide), if_pos rfl]
  have hsome : (text listing).isEmpty = false := by decide
  simp [parseSql, hsome, hread]

theorem text_count : text (countStatement listing none) = "SELECT COUNT(*) FROM users".toList := by
  decide +kernel

theorem parse_count : parseSql readUsers (text (countStatement listing none)) =
    .ok (some (.query (countStatement listing none))) := by
  have hread : readUsers (text (countStatement listing none)) =
      some [.query (countStatement listing none)] := by
    have hother : "SELECT COUNT(*) FROM users".toList ≠ text listing := by decide +kernel
    rw [readUsers, text_count, if_neg (by decide), if_neg hother, if_pos rfl]
  have hsome : (text (countStatement listing none)).isEmpty = false := by
    rw [text_count]
    rfl
  simp [parseSql, hsome, hread]

theorem parse_windowText (offset : UInt32) :
    parseSql readUsers (windowText offset) = .ok (some (.query (windowed listing 3 offset))) := by
  have hsome : (windowText offset).isEmpty = false := by
    rw [List.isEmpty_eq_false_iff]
    exact List.append_ne_nil_of_left_ne_nil (by decide) _
  simp [parseSql, hsome, readUsers_windowText]

theorem build_listRows (p : UInt32) :
    listRows.build (serialPage .default 3 p) =
      .ok ⟨windowText (saturatingMul (saturatingSub (max p 1) 1) 3), []⟩ := by
  have hparse : parseSql listRows.parser listRows.baseSql = .ok (some (.query listing)) :=
    parse_users
  have hnumbers : collectNumberedPlaceholders (text listing) = [] := by decide
  have hbuilt := @buildDynamicSql_of_baseBinds listRows.cfg listRows.display _ _ _ hparse
    (serialPage .default 3 p) [] [] (congrArg (Prod.mk []) hnumbers.symm)
  have hmax : maxPlaceholder (collectNumberedPlaceholders listRows.baseSql) = 0 := by
    rw [show listRows.baseSql = text listing from rfl, hnumbers]
    rfl
  have hstatement : dynamicStatement listRows.cfg (.query listing) (serialPage .default 3 p) [] 0 =
      .ok (.query (windowQuery (saturatingMul (saturatingSub (max p 1) 1) 3)), []) := by
    rfl
  rw [hmax, hstatement] at hbuilt
  rw [← numberedAnew_windowText, ← render_windowTokens, ← tokens_windowQuery]
  exact hbuilt

theorem rereads_listRows : RereadsPages listRows (serialPage .default 3) listing where
  page p built q' hbuilt hemits := by
    obtain rfl := Except.ok.inj ((build_listRows p).symm.trans hbuilt)
    obtain ⟨q, binds, hparsed, hstatement⟩ := hemits
    obtain rfl : listing = q := Statement.query.inj
      (Option.some.inj (Except.ok.inj (parse_users.symm.trans hparsed)))
    have hsame : listRows.statement listing (serialPage .default 3 p) =
        .ok (.query (windowQuery (saturatingMul (saturatingSub (max p 1) 1) 3)), []) := by
      rfl
    obtain ⟨hquery, -⟩ := Prod.mk.inj (Except.ok.inj (hsame.symm.trans hstatement))
    obtain rfl := Statement.query.inj hquery
    exact parse_windowText _
  count := parse_count

theorem countable_users (args : List FilterValue) :
    Countable (usersServer.engine args) listing where
  plain :=
    { select := by
        intro s hs
        injection hs with hs
        subst hs
        exact ⟨rfl, rfl, ⟨[], [], rfl⟩, .inr (.inr rfl), rfl, rfl⟩
      rest := rfl }
  order := rfl
  fetch := rfl
  accepted := rfl
  derived _ := rfl
  aliases s hs := by
    obtain rfl := SetExpr.select.inj hs.1
    intro e he
    cases he

end CountedExample

open CountedExample

end SqlxData.Paging
