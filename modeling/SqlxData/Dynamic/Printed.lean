import SqlxData.Dynamic.Emits
import Mathlib.Data.List.ReduceOption

/-!
Where the generated placeholders stand in the printed statement: behind the
WHERE of each SELECT of the body, between the placeholders of the base
statement, which keep their order.
-/

namespace SqlxData.Dynamic

open SqlxData.Sqlparser SqlxData.Core

variable {cfg : Config} (D : Display)

/-! ### Placeholders of SELECT, set expressions and queries -/

def optionMarks (e : Option Expr) : List Mark := e.toList.flatMap fun e => marks (D.expr e)

/-- The placeholders of a SELECT up to the end of its WHERE. -/
def aheadMarks (s : Select) : List Mark :=
  marks (D.quantifier s.distinct s.top) ++ marks (D.projection s.projection) ++
    marks (D.from s.from) ++ optionMarks D s.selection

/-- The placeholders of a SELECT behind its WHERE. -/
def behindMarks (s : Select) : List Mark :=
  marks (D.groupBy s.groupBy) ++ optionMarks D s.having ++
    marks (D.selectRest s.namedWindow s.rest)

theorem marks_elim (w : String) (e : Option Expr) :
    marks (e.elim [] fun e => .word w :: D.expr e) = optionMarks D e := by
  cases e <;> simp [optionMarks]

theorem marks_setExpr_select (s : Select) :
    marks (D.setExpr (.select s)) = aheadMarks D s ++ behindMarks D s := by
  simp [D.setExpr_select, marks_elim, aheadMarks, behindMarks]

theorem marks_setExpr_query (q : Query) : marks (D.setExpr (.query q)) = marks (D.query q) := by
  simp [D.setExpr_query]

theorem marks_setExpr_setOperation (op : SetOperator) (quantifier : SetQuantifier)
    (l r : SetExpr) :
    marks (D.setExpr (.setOperation op quantifier l r)) =
      marks (D.setExpr l) ++ marks (D.setExpr r) := by
  simp [D.setExpr_setOperation]

def withMarks (ctes : Option With) : List Mark := ctes.toList.flatMap fun w => marks (D.with w)

theorem marks_query (q : Query) :
    marks (D.query q) =
      withMarks D q.with ++ marks (D.setExpr q.body) ++
        (marks (D.orderBy q.orderBy) ++ marks (D.limitClause q.limitClause) ++
          (marks (D.fetch q.fetch) ++ marks (D.queryRest q.rest))) := by
  rw [D.query_eq]
  cases q.with <;> simp [withMarks]

theorem optionMarks_withDynamicWhere (selection dynamicWhere : Option Expr) :
    optionMarks D (withDynamicWhere selection dynamicWhere) =
      optionMarks D selection ++ optionMarks D dynamicWhere := by
  rcases selection with _ | existing <;> rcases dynamicWhere with _ | combined <;>
    simp [withDynamicWhere, optionMarks, and]

/-! ### Insertion -/

/-- `Inserted R e ms printed`: the set expression `e` is printed with the
placeholders `printed` once each of its SELECTs has got its share of `ms`
behind its WHERE, in an arrangement that `R` allows. -/
inductive Inserted (R : List Mark → List Mark → Prop) : SetExpr → List Mark → List Mark → Prop
  | select (s : Select) (ms shown : List Mark) (h : R ms shown) :
      Inserted R (.select s) ms (aheadMarks D s ++ shown ++ behindMarks D s)
  | setOperation (op : SetOperator) (quantifier : SetQuantifier) {l r : SetExpr}
      {ms₁ ms₂ printed₁ printed₂ : List Mark} (hl : Inserted R l ms₁ printed₁)
      (hr : Inserted R r ms₂ printed₂) :
      Inserted R (.setOperation op quantifier l r) (ms₁ ++ ms₂) (printed₁ ++ printed₂)
  | query (ctes : Option With) {body : SetExpr} (order : Option OrderBy)
      (limit : Option LimitClause) (fetch : Option Expr) (rest : List Expr)
      {ms printed : List Mark} (h : Inserted R body ms printed) :
      Inserted R (.query ⟨ctes, body, order, limit, fetch, rest⟩) ms
        (withMarks D ctes ++ printed ++ (marks (D.orderBy order) ++ marks (D.limitClause limit) ++
          (marks (D.fetch fetch) ++ marks (D.queryRest rest))))
  | values (rows : List (List Expr)) : Inserted R (.values rows) [] (marks (D.setExpr (.values rows)))
  | table (name : String) : Inserted R (.table name) [] (marks (D.setExpr (.table name)))
  | other (form : String) (args : List Expr) :
      Inserted R (.other form args) [] (marks (D.setExpr (.other form args)))

/-- The arrangement the builder makes of the placeholders `ms` of one SELECT:
the same placeholders, and in order unless the request has a cursor. -/
structure Arranged (cfg : Config) (params : Params) (ms shown : List Mark) : Prop where
  length : ms.length = (selectValues cfg params).length
  mem_iff : ∀ m, m ∈ shown ↔ m ∈ ms
  inOrder : ¬HasCursor params → shown = ms

/-- The values the SELECTs of a set expression bind, from left to right. -/
def setExprValues (cfg : Config) (params : Params) : SetExpr → List FilterValue
  | .select _ => selectValues cfg params
  | .setOperation _ _ left right =>
      setExprValues cfg params left ++ setExprValues cfg params right
  | .query ⟨_, body, _, _, _, _⟩ => setExprValues cfg params body
  | _ => []

theorem PartsShow.arranged {params : Params} {ms : List Mark} {parts : DynamicParts}
    (h : PartsShow D params ms parts) (hlength : ms.length = (selectValues cfg params).length) :
    Arranged cfg params ms (optionMarks D parts.combined) := by
  obtain ⟨ms₁, ms₂, ms₃, rfl, hfilters, hsearch, hcursor⟩ := h
  have hcombined : optionMarks D parts.combined =
      ms₁ ++ ms₂ ++ optionMarks D parts.cursor := by
    rw [optionMarks, marks_combined, List.flatMap_append, List.flatMap_append]
    rw [show (parts.filters.flatMap fun e => marks (D.expr e)) = ms₁ from hfilters,
      show (parts.search.flatMap fun e => marks (D.expr e)) = ms₂ from hsearch, optionMarks]
  rw [hcombined]
  rcases hcursor with ⟨e, he, hcursor, hshows⟩ | ⟨hnone, rfl⟩
  · refine ⟨hlength, fun m => ?_, fun hno => (hno hcursor).elim⟩
    have hm := hshows m
    simp only [optionMarks, he, Option.toList_some, List.flatMap_singleton, List.mem_append, hm]
    tauto
  · refine ⟨hlength, fun m => ?_, fun _ => ?_⟩ <;> simp [hnone, optionMarks]

theorem emits_processSetExpr (params : Params) (e : SetExpr) :
    Emits cfg (setExprValues cfg params e)
      (fun ms e' => Inserted D (Arranged cfg params) e ms (marks (D.setExpr e')))
      (processSetExpr cfg params e) := by
  fun_induction processSetExpr cfg params e with
  | case1 select =>
      refine (emits_processSelect D params select).map _ ?_
      rintro n _ ⟨parts, hparts, rfl⟩
      have h := Inserted.select (D := D) select _ _ (hparts.arranged D (length_issued n _))
      rw [marks_setExpr_select]
      simpa only [aheadMarks, behindMarks, optionMarks_withDynamicWhere, List.append_assoc] using h
  | case2 op quantifier left right ihl ihr =>
      refine (ihl.seq fun left' => ihr.map (Q := fun ms e => ∃ right',
        Inserted D (Arranged cfg params) right ms (marks (D.setExpr right')) ∧
          e = .setOperation op quantifier left' right') _ fun n right' h => ⟨right', h, rfl⟩).mono ?_
      rintro n _ ⟨left', ms₁, ms₂, hms, hleft, right', hright, rfl⟩
      rw [hms, marks_setExpr_setOperation]
      exact .setOperation op quantifier hleft hright
  | case3 ctes body order limit fetch rest ih =>
      refine ih.map _ fun n body' h => ?_
      rw [marks_setExpr_query, marks_query]
      exact .query ctes order limit fetch rest h
  | case4 rows =>
      refine (emits_pure _).mono ?_
      rintro n _ ⟨hms, rfl⟩
      rw [hms]
      exact .values rows
  | case5 name =>
      refine (emits_pure _).mono ?_
      rintro n _ ⟨hms, rfl⟩
      rw [hms]
      exact .table name
  | case6 form args =>
      refine (emits_pure _).mono ?_
      rintro n _ ⟨hms, rfl⟩
      rw [hms]
      exact .other form args

theorem inserted_nil {R : List Mark → List Mark → Prop} (hR : R [] []) :
    ∀ e, Inserted D R e [] (marks (D.setExpr e))
  | .select s => by
      have h := Inserted.select (D := D) s [] [] hR
      rwa [List.append_nil, ← marks_setExpr_select] at h
  | .setOperation op quantifier l r => by
      rw [marks_setExpr_setOperation]
      exact .setOperation op quantifier (inserted_nil hR l) (inserted_nil hR r)
  | .query ⟨ctes, body, order, limit, fetch, rest⟩ => by
      rw [marks_setExpr_query, marks_query]
      exact .query ctes order limit fetch rest (inserted_nil hR body)
  | .values rows => .values rows
  | .table name => .table name
  | .other form args => .other form args

/-! ### The statement -/

def replacesOrderBy (params : Params) : Bool :=
  params.sortBy.any fun sortBy => !sortBy.sorts.isEmpty

def replacesLimit (params : Params) : Bool := params.limit.isSome || params.offset.isSome

/-- The placeholders behind the body that are still printed. -/
def tailMarks (params : Params) (q : Query) : List Mark :=
  (if replacesOrderBy params then [] else marks (D.orderBy q.orderBy)) ++
    (if replacesLimit params then [] else marks (D.limitClause q.limitClause)) ++
    (marks (D.fetch q.fetch) ++ marks (D.queryRest q.rest))

theorem marks_orderByOf (sorts : List SortField) (invert : Bool) :
    marks (D.orderBy (some (orderByOf sorts invert))) = [] := by
  have h := D.orderBy_expressions (sorts.map fun s => (idExpr s.field,
    ⟨some (if invert then !s.isAsc else s.isAsc), s.nullsAsBool⟩))
  rw [List.map_map] at h
  rw [orderByOf]
  refine (congrArg marks h).trans ?_
  simp [marks_commaSep, List.map_map]

theorem marks_orderByFor (params : Params) (existing : Option OrderBy) :
    marks (D.orderBy (orderByFor params existing)) =
      if replacesOrderBy params then [] else marks (D.orderBy existing) := by
  rcases hsort : params.sortBy with _ | sortBy
  · simp [orderByFor, replacesOrderBy, hsort]
  · cases hsorts : sortBy.sorts.isEmpty <;>
      simp [orderByFor, replacesOrderBy, hsort, hsorts, marks_orderByOf]

theorem addU8_eq_ok {a b c : UInt8} (h : addU8 cfg a b = .ok c) : c = a + b := by
  rw [addU8] at h
  split at h
  · simp at h
  · exact (Except.ok.inj h).symm

theorem limitExprOf_marks {params : Params} {limit : Option Expr}
    (h : limitExprOf cfg params = .ok limit) :
    limit.isSome = params.limit.isSome ∧ optionMarks D limit = [] := by
  rw [limitExprOf] at h
  split at h
  · rename_i hlimit
    obtain ⟨n, -, hn⟩ := exists_of_bind_eq_ok h
    obtain rfl := Except.ok.inj hn
    simp [hlimit, optionMarks]
  · rename_i hlimit
    obtain rfl := Except.ok.inj h
    simp [hlimit, optionMarks]

/-- A LIMIT or OFFSET of the request replaces the whole clause by numbers. -/
theorem marks_limitClauseOf {params : Params} {existing limitClause : Option LimitClause}
    (h : limitClauseOf cfg params existing = .ok limitClause) :
    marks (D.limitClause limitClause) =
      if replacesLimit params then [] else marks (D.limitClause existing) := by
  obtain ⟨limit, hlimit, h⟩ := exists_of_bind_eq_ok h
  obtain ⟨hsome, hmarks⟩ := limitExprOf_marks D hlimit
  have hoffset : (offsetExprOf params).isSome = params.offset.isSome := by simp [offsetExprOf]
  simp only [hsome, hoffset] at h
  split at h
  · rename_i hreplaces
    obtain rfl := Except.ok.inj h
    rw [replacesLimit, if_pos hreplaces]
    obtain ⟨rest, hclause, hrest⟩ := D.limitClause_limitOffset limit (offsetExprOf params) []
    have hrows : ∀ o ∈ offsetExprOf params, o.rows = .none := by
      cases hoff : params.offset <;> simp [offsetExprOf, hoff]
    rw [hclause, hrest ⟨rfl, hrows⟩]
    rw [List.append_nil, marks_append, marks_elim, hmarks]
    cases hoff : params.offset <;> simp [offsetExprOf, hoff]
  · rename_i hreplaces
    obtain rfl := Except.ok.inj h
    rw [replacesLimit, if_neg hreplaces]

/-- The placeholders of the printed statement: `ms` are the generated ones. -/
def Printed (cfg : Config) (params : Params) (q : Query) (ms printed : List Mark) : Prop :=
  ∃ body, Inserted D (Arranged cfg params) q.body ms body ∧
    printed = withMarks D q.with ++ body ++ tailMarks D params q

/-- What `process_query` does: every bind list of the same length gets the
same values appended and gives the same statement. -/
theorem processQuery_spec {q q' : Query} {params : Params} {binds binds' : List FilterValue}
    {maxExisting : ℕ} (h : processQuery cfg q params binds maxExisting = .ok (q', binds')) :
    let vs := setExprValues cfg params q.body
    (∀ binds₂, binds₂.length = binds.length →
      processQuery cfg q params binds₂ maxExisting = .ok (q', binds₂ ++ vs)) ∧
    Printed D cfg params q (issued cfg (startIndex binds.length maxExisting + 1) vs)
      (marks (D.query q')) := by
  obtain ⟨n, hn, h⟩ := exists_of_bind_eq_ok h
  obtain rfl := addU8_eq_ok hn
  have hemits : Emits cfg _ _ _ := emits_processSetExpr D params q.body
  rcases hemits (startIndex binds.length maxExisting + 1) with ⟨err, herr⟩ | ⟨body, hbody, hrun⟩
  · rw [herr] at h
    exact absurd h (by simp [Bind.bind, Except.bind])
  · rw [hrun] at h
    obtain ⟨_, hpair, h⟩ := exists_of_bind_eq_ok h
    obtain rfl := Except.ok.inj hpair
    obtain ⟨limitClause, hlimit, h⟩ := exists_of_bind_eq_ok h
    obtain ⟨rfl, -⟩ := Prod.mk.inj (Except.ok.inj h)
    refine ⟨fun binds₂ hlen => ?_, _, hbody, ?_⟩
    · rw [processQuery, hlen, hn]
      simp only [Bind.bind, Except.bind, hrun, hlimit]
    · rw [marks_query]
      simp only [tailMarks, marks_orderByFor, marks_limitClauseOf D hlimit, List.append_assoc]

theorem selectValues_of_isEmpty {params : Params} (h : params.isEmpty) :
    selectValues cfg params = [] := by
  simp only [Params.isEmpty, Bool.and_eq_true, Option.isNone_iff_eq_none] at h
  obtain ⟨⟨⟨⟨⟨hfilters, hsearch⟩, -⟩, hpagination⟩, -⟩, -⟩ := h
  simp [selectValues, hfilters, hsearch, hpagination, filterParamsValues,
    searchParamsValues, paginationValues]

theorem setExprValues_of_selectValues {params : Params} (h : selectValues cfg params = [])
    (e : SetExpr) : setExprValues cfg params e = [] := by
  fun_induction setExprValues cfg params e with
  | case1 => exact h
  | case2 op quantifier left right ihl ihr => rw [ihl, ihr, List.nil_append]
  | case3 ctes body order limit fetch rest ih => exact ih
  | case4 => rfl

theorem setExprValues_of_isEmpty {params : Params} (h : params.isEmpty) (e : SetExpr) :
    setExprValues cfg params e = [] :=
  setExprValues_of_selectValues (selectValues_of_isEmpty h) e

/-- What is printed and bound: the statement does not depend on the values of
the arguments, and the generated values are appended to them. -/
theorem dynamicStatement_spec {q : Query} {st : Statement} {params : Params}
    {binds binds' : List FilterValue} {maxExisting : ℕ}
    (h : dynamicStatement cfg (.query q) params binds maxExisting = .ok (st, binds')) :
    let vs := setExprValues cfg params q.body
    (∀ binds₂, binds₂.length = binds.length →
      dynamicStatement cfg (.query q) params binds₂ maxExisting = .ok (st, binds₂ ++ vs)) ∧
    ∃ q', st = .query q' ∧
      Printed D cfg params q (issued cfg (startIndex binds.length maxExisting + 1) vs)
        (marks (D.query q')) := by
  unfold dynamicStatement at h ⊢
  by_cases hempty : params.isEmpty
  · rw [if_pos hempty] at h
    obtain ⟨rfl, rfl⟩ := Prod.mk.inj (Except.ok.inj h)
    have hnone : params.sortBy = none ∧ params.limit = none ∧ params.offset = none := by
      simp only [Params.isEmpty, Bool.and_eq_true, Option.isNone_iff_eq_none] at hempty
      tauto
    refine ⟨fun binds₂ _ => by simp [hempty, setExprValues_of_isEmpty hempty], q, rfl,
      marks (D.setExpr q.body), ?_, ?_⟩
    · rw [setExprValues_of_isEmpty hempty]
      have hselect : selectValues cfg params = [] := selectValues_of_isEmpty hempty
      exact inserted_nil D ⟨by simp [hselect], fun _ => Iff.rfl, fun _ => rfl⟩ q.body
    · rw [marks_query]
      simp [tailMarks, replacesOrderBy, replacesLimit, hnone]
  · rw [if_neg hempty] at h
    obtain ⟨⟨q', binds'⟩, hquery, h⟩ := exists_of_bind_eq_ok h
    obtain ⟨rfl, rfl⟩ := Prod.mk.inj (Except.ok.inj h)
    obtain ⟨hrun, hprinted⟩ := processQuery_spec D hquery
    refine ⟨fun binds₂ hlen => ?_, q', rfl, hprinted⟩
    rw [if_neg hempty]
    simp only [hrun binds₂ hlen, Bind.bind, Except.bind]

/-! ### The built text -/

theorem placeholderIndex_eq_none {e : Expr} (h : marks (D.expr e) = []) :
    placeholderIndex e = none := by
  unfold placeholderIndex
  split
  · rename_i ph origin
    rw [D.expr_placeholder] at h
    simp at h
  · rfl

theorem marks_operand_subset {clause : LimitClause} {e : Expr}
    (he : e ∈ LimitClause.operands clause) :
    marks (D.expr e) ⊆ marks (D.limitClause (some clause)) := by
  intro m hm
  cases clause with
  | limitOffset limit offset limitBy =>
      obtain ⟨rest, hprint, -⟩ := D.limitClause_limitOffset limit offset limitBy
      rw [hprint]
      simp only [LimitClause.operands, List.mem_append, Option.mem_toList] at he
      simp only [marks_append, List.mem_append]
      rcases he with hlimit | hoffset
      · rw [Option.mem_def.mp hlimit]
        simp [hm]
      · obtain ⟨o, rfl, rfl⟩ := Option.map_eq_some_iff.mp (Option.mem_def.mp hoffset)
        simp [hm]
  | offsetCommaLimit offset limit =>
      rw [D.limitClause_offsetCommaLimit]
      simp only [LimitClause.operands, List.mem_cons, List.not_mem_nil, or_false] at he
      rcases he with rfl | rfl <;> simp [hm]

theorem trim_of_marks_eq_nil {β : Type} {q : Query} (binds : List β)
    (h : marks (D.limitClause q.limitClause) = []) :
    trimLimitOffsetPlaceholderBinds q binds = (binds, []) := by
  unfold trimLimitOffsetPlaceholderBinds
  split
  · rfl
  · rename_i clause hclause
    have hfound : (LimitClause.operands clause).filterMap placeholderIndex = [] := by
      rw [List.filterMap_eq_nil_iff]
      intro e he
      refine placeholderIndex_eq_none D (List.subset_nil.mp ?_)
      rw [← h, hclause]
      exact marks_operand_subset D he
    rw [hfound]
    rfl

/-- How many arguments are dropped with the `?` of a replaced LIMIT clause. -/
def trimmedCount (params : Params) (q : Query) : ℕ :=
  if replacesLimit params then
    (q.limitClause.toList.flatMap fun clause =>
      (LimitClause.operands clause).filterMap placeholderIndex).length
  else 0

theorem iterate_dropLast {β : Type} (k : ℕ) (l : List β) :
    List.dropLast^[k] l = l.take (l.length - k) := by
  induction k generalizing l with
  | zero => simp
  | succ k ih =>
      rw [Function.iterate_succ_apply, ih, List.dropLast_eq_take, List.take_take, List.length_take]
      congr 1
      omega

/-- A clause with `?` only has no numbers. -/
theorem no_numbers_of_questions {clause : LimitClause}
    (hquestions : ∀ m ∈ marks (D.limitClause (some clause)), m.text = "?") :
    ((LimitClause.operands clause).filterMap placeholderIndex).reduceOption = [] := by
  rw [List.reduceOption, List.filterMap_filterMap, List.filterMap_eq_nil_iff]
  intro e he
  have hmarks := marks_operand_subset D he
  unfold placeholderIndex
  split
  · rename_i ph origin
    have hph : ph = "?" := hquestions ⟨ph, origin⟩ (hmarks (by simp [D.expr_placeholder]))
    simp [hph]
  · rfl

/-- With `?` only, the last arguments are dropped and no number is. -/
theorem baseBinds_questions {baseSql : List Char} {q : Query} (params : Params)
    (hquestions : ∀ m ∈ marks (D.limitClause q.limitClause), m.text = "?")
    (initialBinds : List FilterValue) :
    baseBinds baseSql (.query q) params initialBinds =
      (initialBinds.take (initialBinds.length - trimmedCount params q),
        collectNumberedPlaceholders baseSql) := by
  have htrim : trimLimitOffsetPlaceholderBinds q initialBinds =
      (initialBinds.take (initialBinds.length - (q.limitClause.toList.flatMap fun clause =>
        (LimitClause.operands clause).filterMap placeholderIndex).length), []) := by
    unfold trimLimitOffsetPlaceholderBinds
    split
    · rename_i hclause
      simp [hclause]
    · rename_i clause hclause
      have hnumbers := no_numbers_of_questions D (hclause ▸ hquestions)
      simp only [hnumbers, hclause, Option.toList_some, List.flatMap_singleton,
        ← iterate_dropLast]
      rfl
  have hreplaces : (params.limit.isSome || params.offset.isSome) = replacesLimit params := rfl
  simp only [baseBinds, hreplaces, trimmedCount]
  cases replacesLimit params with
  | true => simp [htrim]
  | false => simp

/-- The result for a printed statement and its bind values. -/
def numberedAnew (baseSql printed : List Char) (binds : List FilterValue) : BuiltSql :=
  let numbers := collectNumberedPlaceholders baseSql
  let renumbered :=
    renumberNumberedPlaceholdersWithBinds binds numbers (maxPlaceholder numbers) printed
  ⟨renumbered.1, renumbered.2⟩

/-- The build is the dynamic statement, numbered anew. -/
theorem buildDynamicSql_of_baseBinds {parser : Core.Parser} {baseSql : List Char} {q : Query}
    (hparse : Core.parseSql parser baseSql = .ok (some (.query q))) (params : Params)
    {initialBinds binds : List FilterValue}
    (hbase : baseBinds baseSql (.query q) params initialBinds =
      (binds, collectNumberedPlaceholders baseSql)) :
    buildDynamicSql cfg D parser baseSql params initialBinds =
      (dynamicStatement cfg (.query q) params binds
        (maxPlaceholder (collectNumberedPlaceholders baseSql))).map fun built =>
          numberedAnew baseSql (render (D.statement built.1)) built.2 := by
  unfold buildDynamicSql
  simp only [hparse, Except.mapError, Bind.bind, Except.bind, hbase]
  cases dynamicStatement cfg (.query q) params binds
    (maxPlaceholder (collectNumberedPlaceholders baseSql)) <;> rfl

/-- The base query has no placeholder in its LIMIT clause: then no argument is
dropped. -/
theorem buildDynamicSql_eq {parser : Core.Parser} {baseSql : List Char} {q : Query}
    (hparse : Core.parseSql parser baseSql = .ok (some (.query q)))
    (hlimit : marks (D.limitClause q.limitClause) = []) (params : Params)
    (binds : List FilterValue) :
    buildDynamicSql cfg D parser baseSql params binds =
      (dynamicStatement cfg (.query q) params binds
        (maxPlaceholder (collectNumberedPlaceholders baseSql))).map fun built =>
          numberedAnew baseSql (render (D.statement built.1)) built.2 := by
  refine buildDynamicSql_of_baseBinds D hparse params ?_
  simp only [baseBinds]
  split <;> simp [trim_of_marks_eq_nil D binds hlimit]

/-- A base statement without placeholders in its `LIMIT` is the printed text of
its new statement, numbered anew with the values it reaches. -/
theorem buildDynamicSql_of_statement {parser : Core.Parser} {baseSql : List Char} {q : Query}
    {params : Params} {binds binds' : List FilterValue} {st : Statement}
    (hparse : Core.parseSql parser baseSql = .ok (some (.query q)))
    (hlimit : marks (D.limitClause q.limitClause) = [])
    (hstatement : dynamicStatement cfg (.query q) params binds
      (maxPlaceholder (collectNumberedPlaceholders baseSql)) = .ok (st, binds')) :
    buildDynamicSql cfg D parser baseSql params binds =
      .ok (numberedAnew baseSql (render (D.statement st)) binds') := by
  rw [buildDynamicSql_eq D hparse hlimit, hstatement]
  rfl

/-- What holds of every text that is built from `n` arguments, where the text
is known. -/
theorem forall_built_iff {parser : Core.Parser} {baseSql : List Char} {params : Params} {n : ℕ}
    {result : List FilterValue → BuiltSql}
    (hbuilt : ∀ initialBinds : List FilterValue, initialBinds.length = n →
      buildDynamicSql cfg D parser baseSql params initialBinds = .ok (result initialBinds))
    (P : List FilterValue → BuiltSql → Prop) :
    (∀ initialBinds : List FilterValue, initialBinds.length = n → ∀ built,
      buildDynamicSql cfg D parser baseSql params initialBinds = .ok built →
        P initialBinds built) ↔
      ∀ initialBinds, initialBinds.length = n → P initialBinds (result initialBinds) := by
  refine forall₂_congr fun initialBinds hlength => ?_
  rw [hbuilt initialBinds hlength]
  simp only [Except.ok.injEq, forall_eq']

end SqlxData.Dynamic
