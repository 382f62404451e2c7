import SqlxData.Core.Cache
import SqlxData.Count.CountStatement
import SqlxData.Dynamic.BindOrigins
import SqlxData.Lib.KeptParts
import SqlxData.Params.Binding

/-!
The bind values of a count query with `?` placeholders. The generated method
takes as many of the bind values of the data query as its count query has `?`
characters. The placeholders of the count query get their values if what it
leaves out of the data query has none, or if what it leaves out has none ahead
of one that is kept and no kept word has a `?` of its own.
-/

namespace SqlxData.Count

open SqlxData.Sqlparser SqlxData.Core KeptParts
open SqlxData.Dynamic (BuiltSql buildDynamicSql questionMark meaning)

/-! ### The generated code -/

inductive PageError
  | parser (err : ParserError)
  | encode (msg : String)
  deriving DecidableEq

def bindFilterValues (values : List FilterValue) : Except PageError (List FilterValue) :=
  values.mapM fun v =>
    match v with
    | .array _ => .error (.encode "Array binding not supported")
    | v => .ok v

/-- The count query of a page and its arguments, as the generated method makes
them in the MySQL build after the data query has got its own. -/
def pageCount (D : Display) (parser : Parser) (builtSql : BuiltSql) :
    Except PageError (List Char × List FilterValue) := do
  let _ ← bindFilterValues builtSql.bindValues
  let countSql ← (countQueryFromSql D parser builtSql.sql).mapError .parser
  let countPlaceholderCount := countSql.count '?'
  let countArgs ← bindFilterValues (builtSql.bindValues.take countPlaceholderCount)
  return (countSql, countArgs)

/-- What is bound are the values themselves, none of them an array. -/
theorem bindFilterValues_eq_ok_iff {values args : List FilterValue} :
    bindFilterValues values = .ok args ↔ args = values ∧ ∀ v ∈ values, ∀ vs, v ≠ .array vs := by
  constructor
  · intro h
    induction values generalizing args with
    | nil =>
        cases h
        exact ⟨rfl, by simp⟩
    | cons v values ih =>
        rw [bindFilterValues, List.mapM_cons] at h
        obtain ⟨w, hw, h⟩ := exists_of_bind_eq_ok h
        obtain ⟨rest, hrest, h⟩ := exists_of_bind_eq_ok h
        cases h
        obtain ⟨rfl, hnone⟩ := ih hrest
        cases v with
        | array vs => cases hw
        | _ =>
            cases hw
            exact ⟨rfl, by simpa using hnone⟩
  · rintro ⟨rfl, h⟩
    induction args with
    | nil => rfl
    | cons v values ih =>
        have hrest := ih fun w hw => h w (List.mem_cons_of_mem v hw)
        have hv := h v List.mem_cons_self
        rw [bindFilterValues] at hrest ⊢
        rw [List.mapM_cons, hrest]
        cases v with
        | array vs => exact absurd rfl (hv vs)
        | _ => rfl

/-- Where sqlx encodes every value, the values bound here are those that become
arguments of the statement, one for one. -/
theorem bindFilterValues_eq_ok_iff_sqlx {S : Sqlx} {backend : Dynamic.Backend}
    (hencodes : ∀ d, S.encodeError backend d = none) (values : List FilterValue) :
    bindFilterValues values = .ok values ↔
      ∃ args, SqlxData.bindFilterValues S backend values = .ok args ∧
        List.Forall₂ (fun v arg => sentArgument backend v = some arg) values args := by
  have hrefused : ∀ v, Refused S backend v ↔ ∃ vs, v = .array vs := by
    intro v
    cases v with
    | array vs => exact iff_of_true (fun arg hsent => by cases hsent) ⟨vs, rfl⟩
    | _ => exact iff_of_false (fun h => h _ rfl (hencodes _)) (by simp)
  rw [bindFilterValues_eq_ok_iff, eq_self_iff_true, true_and]
  constructor
  · intro hnone
    have hkept : ∀ v ∈ values, ¬Refused S backend v := by
      intro v hv h
      obtain ⟨vs, hvs⟩ := (hrefused v).mp h
      exact hnone v hv vs hvs
    exact foldlM_bind_of_not_refused hkept []
  · rintro ⟨args, hargs, -⟩ v hv vs rfl
    obtain ⟨msg, hmsg⟩ := foldlM_bind_of_refused ⟨_, hv, (hrefused (.array vs)).mpr ⟨vs, rfl⟩⟩ []
    rw [SqlxData.bindFilterValues, hmsg] at hargs
    cases hargs

/-! ### The count query and its clauses -/

/-- The count query as it is printed, with the placeholders it has left. -/
def countTokens (D : Display) : Statement → List Tok
  | .query q => D.query (countStatement q none)
  | .other form => D.other form

theorem render_countTokens (D : Display) (st : Statement) :
    generateCountQuery D st none = render (countTokens D st) := by
  cases st with
  | query q => exact generateCountQuery_eq D q none
  | other form => rfl

/-- The query `countSql` is the one printed as `ts`, and each of its
placeholders gets the value it has in the data query. -/
structure CountBound (bindValues : List FilterValue) (ts : List Tok)
    (count : List Char × List FilterValue) : Prop where
  text : count.1 = render ts
  bound : List.Forall₂ (fun m v => meaning bindValues m.origin = some v) (marks ts) count.2

/-- A part of the printed data query: does the count query keep it? -/
abbrev Clause := Bool × List Tok

section Clauses

variable (D : Display)

/-- FROM and what stands behind it in a SELECT. -/
def fromOn (s : Select) : List Tok :=
  D.from s.from ++ (s.selection.elim [] fun e => .word " WHERE " :: D.expr e) ++
    D.groupBy s.groupBy ++ (s.having.elim [] fun e => .word " HAVING " :: D.expr e) ++
    D.selectRest s.namedWindow s.rest

def withoutProjection (s : Select) : List Clause :=
  [(true, D.quantifier s.distinct s.top), (false, D.projection s.projection), (true, fromOn D s)]

def bodyClauses (q : Query) : List Clause :=
  match q.body, (analyzeQueryBody q none).strategy with
  | .select s, .simpleCount => withoutProjection D s
  | .select s, .countDistinct [e] =>
      [(false, D.quantifier s.distinct none), (true, D.quantifier none s.top), (true, D.expr e),
        (true, fromOn D s)]
  | .select s, .subqueryCount =>
      if canOptimizeToSelect1 s then withoutProjection D s else [(true, D.setExpr q.body)]
  | body, _ => [(true, D.setExpr body)]

/-- The parts of a data query that may hold placeholders, from left to right. -/
def clauses : Statement → List Clause
  | .query q =>
      (true, q.with.elim [] D.with) :: bodyClauses D q ++
        [(false, D.orderBy q.orderBy), (false, D.limitClause q.limitClause),
          (false, D.fetch q.fetch), (true, D.queryRest q.rest)]
  | .other form => [(true, D.other form)]

/-- The parts the count query keeps. -/
def keptTokens (st : Statement) : List Tok := ((clauses D st).filter Prod.fst).flatMap Prod.snd

/-- The placeholders of the parts. -/
def placeholderParts (st : Statement) : List (Bool × List Mark) :=
  (clauses D st).map fun c => (c.1, marks c.2)

end Clauses

/-- The `?` characters in the words of a text, such as those of a string. -/
def strayQuestions (ts : List Tok) : ℕ :=
  (ts.map fun t =>
    match t with
    | .word s => s.toList.count '?'
    | .placeholder _ _ => 0).sum

@[simp] theorem strayQuestions_nil : strayQuestions [] = 0 := rfl

@[simp] theorem strayQuestions_word (s : String) (ts : List Tok) :
    strayQuestions (.word s :: ts) = s.toList.count '?' + strayQuestions ts := by
  simp [strayQuestions]

@[simp] theorem strayQuestions_append (ts us : List Tok) :
    strayQuestions (ts ++ us) = strayQuestions ts + strayQuestions us := by
  simp [strayQuestions]

theorem count_render {ts : List Tok} (h : ∀ m ∈ marks ts, m.text = "?") :
    (render ts).count '?' = (marks ts).length + strayQuestions ts := by
  induction ts with
  | nil => rfl
  | cons t ts ih =>
      have hrest := ih fun m hm => h m (by cases t <;> simp [hm])
      cases t with
      | word s =>
          simp only [render_cons, Tok.text_word, List.count_append, hrest, marks_word,
            strayQuestions_word]
          omega
      | placeholder text origin =>
          obtain rfl : text = "?" := h ⟨text, origin⟩ (by simp)
          simp only [render_cons, Tok.text_placeholder, List.count_append, hrest,
            marks_placeholder, List.length_cons]
          have hself : strayQuestions (.placeholder "?" origin :: ts) = strayQuestions ts := by
            simp [strayQuestions]
          have hone : "?".toList.count '?' = 1 := by decide
          omega

/-- Nothing with a placeholder is left out, or what is left out has none ahead
of one that is kept and the kept words have no `?`. -/
def KeepsBinds (D : Display) (st : Statement) : Prop :=
  (∀ p ∈ placeholderParts D st, p.1 = false → p.2 = []) ∨
    strayQuestions (keptTokens D st) = 0 ∧
      (placeholderParts D st).Pairwise InPlace

instance (D : Display) (st : Statement) : Decidable (KeepsBinds D st) :=
  inferInstanceAs (Decidable (_ ∨ _))

/-! ### The parts are the whole -/

/-- A printer that writes DISTINCT ahead of TOP and the items of a projection
one by one. -/
structure PrintsItems (D : Display) : Prop where
  quantifier : ∀ distinct top,
    D.quantifier distinct top = D.quantifier distinct none ++ D.quantifier none top
  projection : ∀ items, D.projection items = commaSep (items.map fun item => D.projection [item])
  exprWithAlias : ∀ e name,
    D.projection [.exprWithAlias e name] = D.expr e ++ [.word (" AS " ++ D.ident name)]
  qualifiedWildcard : ∀ name, ∃ text, D.projection [.qualifiedWildcard name] = [.word text]
  wildcard : D.projection [.wildcard] = [.word "*"]

section Parts

variable {D : Display}

theorem PrintsItems.marks_projection (hD : PrintsItems D) (s : Select) :
    marks (D.projection s.projection) =
      (getProjectedExprRefs s).flatMap fun e => marks (D.expr e) := by
  rw [hD.projection, Dynamic.marks_commaSep, getProjectedExprRefs, List.flatMap_map]
  induction s.projection with
  | nil => rfl
  | cons item items ih =>
      rw [List.flatMap_cons, ih]
      cases item with
      | unnamedExpr e => simp [D.projection_unnamed]
      | exprWithAlias e name => simp [hD.exprWithAlias]
      | qualifiedWildcard name =>
          obtain ⟨text, htext⟩ := hD.qualifiedWildcard name
          simp [htext]
      | wildcard => simp [hD.wildcard]

theorem exprs_of_countDistinct {q : Query} {s : Select} (hbody : q.body = .select s)
    {es : List Expr} (h : (analyzeQueryBody q none).strategy = .countDistinct es) :
    es = getProjectedExprRefs s := by
  revert h
  simp only [analyzeQueryBody, hbody, analyzeDistinct]
  split_ifs <;> intro h <;> cases h
  rfl

theorem setExpr_select_eq (s : Select) :
    D.setExpr (.select s) =
      .word "SELECT " :: D.quantifier s.distinct s.top ++ D.projection s.projection ++
        fromOn D s := by
  simp [D.setExpr_select, fromOn]

theorem marks_bodyClauses (hD : PrintsItems D) (q : Query) :
    whole ((bodyClauses D q).map fun c => (c.1, marks c.2)) = marks (D.setExpr q.body) := by
  unfold bodyClauses
  split
  · rename_i s hbody hstrategy
    simp [withoutProjection, hbody, setExpr_select_eq]
  · rename_i s e hbody hstrategy
    have hitems := hD.marks_projection s
    rw [← exprs_of_countDistinct hbody hstrategy] at hitems
    rw [hbody, setExpr_select_eq, hD.quantifier s.distinct s.top]
    simp [hitems]
  · rename_i s hbody hstrategy
    split
    · simp [withoutProjection, hbody, setExpr_select_eq]
    · simp
  · simp

theorem marks_clauses (hD : PrintsItems D) (st : Statement) :
    whole (placeholderParts D st) = marks (D.statement st) := by
  cases st with
  | other form => simp [placeholderParts, clauses, Display.statement]
  | query q =>
      have hbody := marks_bodyClauses hD q
      simp only [whole] at hbody
      rw [Display.statement, D.query_eq]
      cases hwith : q.with <;> simp [placeholderParts, clauses, whole, ← hbody, hwith]

/-! ### What the count query keeps -/

/-- Texts with the same placeholders and as many other `?`. -/
def SameQuestions (ts us : List Tok) : Prop :=
  marks ts = marks us ∧ strayQuestions ts = strayQuestions us

theorem query_countedRows (withClause : Option With) (inner : Query) :
    D.query (countedRows withClause inner) =
      (withClause.elim [] fun w => D.with w ++ [.word " "]) ++
        [.word "SELECT ", .word "COUNT(", .word "*", .word ")", .word " FROM ", .word "("] ++
          D.query inner ++ [.word ")", .word " AS sub"] := by
  have hcall : "COUNT" ++ "(" ++ DuplicateTreatment.text none = "COUNT(" := by decide
  have hname : " AS " ++ "sub" = " AS sub" := by decide
  rw [D.query_eq]
  simp only [countedRows, countExpr, D.setExpr_select, D.quantifier_none, D.projection_unnamed,
    D.expr_call, D.ident_new, D.from_derived, D.groupBy_none, D.selectRest_none, D.orderBy_none,
    D.limitClause_none, D.fetch_none, D.queryRest_none, hcall, hname]
  simp [commaSep, D.expr_wildcard]

theorem keptTokens_query (q : Query) :
    keptTokens D (.query q) = q.with.elim [] D.with ++
      (((bodyClauses D q).filter Prod.fst).flatMap Prod.snd ++ D.queryRest q.rest) := by
  simp [keptTokens, clauses]

theorem SameQuestions.append {ts us ts' us' : List Tok} (h : SameQuestions ts us)
    (h' : SameQuestions ts' us') : SameQuestions (ts ++ ts') (us ++ us') := by
  simp [SameQuestions, h.1, h.2, h'.1, h'.2]

theorem sameQuestions_stripped (q : Query) {body : SetExpr} {ts : List Tok}
    (h : SameQuestions (D.setExpr body) ts) :
    SameQuestions (D.query { stripped q with body := body })
      (q.with.elim [] D.with ++ (ts ++ D.queryRest q.rest)) := by
  rw [D.query_eq]
  cases hwith : q.with <;>
    simp [SameQuestions, stripped, D.orderBy_none, D.limitClause_none, D.fetch_none, hwith, h.1, h.2]

theorem sameQuestions_countedRows (q : Query) {body : SetExpr} {ts : List Tok}
    (h : SameQuestions (D.setExpr body) ts) :
    SameQuestions (D.query (countedRows q.with { Query.forCount q with body := body }))
      (q.with.elim [] D.with ++ (ts ++ D.queryRest q.rest)) := by
  rw [query_countedRows, D.query_eq]
  cases hwith : q.with <;>
    simp [SameQuestions, Query.forCount, D.orderBy_none, D.limitClause_none, D.fetch_none, h.1, h.2]

/-- Another projection changes nothing from FROM on. -/
theorem sameQuestions_select {s s' : Select} (hfrom : fromOn D s' = fromOn D s) {ts : List Tok}
    (h : SameQuestions (D.quantifier s'.distinct s'.top ++ D.projection s'.projection) ts) :
    SameQuestions (D.setExpr (.select s')) (ts ++ fromOn D s) := by
  rw [setExpr_select_eq, hfrom]
  simpa [SameQuestions] using h.append ⟨rfl, rfl⟩

theorem sameQuestions_starSelect (s : Select) :
    SameQuestions (D.setExpr (.select (starSelect s)))
      (D.quantifier s.distinct s.top ++ fromOn D s) := by
  refine sameQuestions_select rfl ?_
  simp [SameQuestions, starSelect, D.projection_unnamed, countExpr, D.expr_call, D.ident_new,
    commaSep, D.expr_wildcard, DuplicateTreatment.text]

theorem sameQuestions_oneSelect (s : Select) :
    SameQuestions (D.setExpr (.select (oneSelect s)))
      (D.quantifier s.distinct s.top ++ fromOn D s) := by
  refine sameQuestions_select rfl ?_
  simp [SameQuestions, oneSelect, D.projection_unnamed, D.expr_number]

theorem sameQuestions_distinctSelect (s : Select) (e : Expr) :
    SameQuestions (D.setExpr (.select (distinctSelect s e)))
      ((D.quantifier none s.top ++ D.expr e) ++ fromOn D s) := by
  refine sameQuestions_select rfl ?_
  simp [SameQuestions, distinctSelect, D.projection_unnamed, countExpr, D.expr_call, D.ident_new,
    commaSep, DuplicateTreatment.text]

theorem sameQuestions_countTokens (st : Statement) :
    SameQuestions (countTokens D st) (keptTokens D st) := by
  cases st with
  | other form => simp [SameQuestions, countTokens, keptTokens, clauses]
  | query q =>
      have hwhole : SameQuestions (D.query (countedRows q.with (Query.forCount q)))
          (q.with.elim [] D.with ++ (D.setExpr q.body ++ D.queryRest q.rest)) :=
        sameQuestions_countedRows q
          (show SameQuestions (D.setExpr q.body) (D.setExpr q.body) from ⟨rfl, rfl⟩)
      rw [keptTokens_query, countTokens]
      unfold countStatement bodyClauses
      cases hbody : q.body with
      | select s =>
          rw [hbody] at hwhole
          cases hstrategy : (analyzeQueryBody q none).strategy with
          | simpleCount =>
              simpa [withoutProjection] using
                sameQuestions_stripped q (sameQuestions_starSelect (D := D) s)
          | countDistinct es =>
              match es with
              | [] => simpa using hwhole
              | [e] =>
                  simpa using sameQuestions_stripped q (sameQuestions_distinctSelect (D := D) s e)
              | _ :: _ :: _ => simpa using hwhole
          | subqueryCount =>
              dsimp only
              split
              · simpa [withoutProjection] using
                  sameQuestions_countedRows q (sameQuestions_oneSelect (D := D) s)
              · simpa using hwhole
      | _ =>
          rw [hbody] at hwhole
          simpa using hwhole

theorem marks_countTokens (st : Statement) :
    marks (countTokens D st) = kept (placeholderParts D st) := by
  rw [(sameQuestions_countTokens st).1, keptTokens, placeholderParts]
  induction clauses D st with
  | nil => rfl
  | cons c cs ih =>
      obtain ⟨keeps, ts⟩ := c
      cases keeps <;> simp [ih]

end Parts

/-! ### The exact condition -/

section Bound

variable {D : Display} {parser : Parser} {sql : List Char} {st : Statement} {n : ℕ}

theorem countQueryFromSql_eq (hparse : Core.parseSql parser sql = .ok (some st)) :
    countQueryFromSql D parser sql = .ok (render (countTokens D st)) := by
  rw [countQueryFromSql, parsedForCount, hparse, ← render_countTokens]
  rfl

/-- Values that differ, none of them an array. -/
theorem exists_distinct_values (n : ℕ) : ∃ values : List FilterValue,
    values.length = n ∧ values.Nodup ∧ ∀ v ∈ values, ∀ vs, v ≠ .array vs := by
  have hinj : Function.Injective fun i : ℕ => FilterValue.blob (List.replicate i 0) := by
    intro i j h
    simpa using congrArg List.length (FilterValue.blob.inj h)
  refine ⟨(List.range n).map fun i => .blob (List.replicate i 0), by simp,
    List.nodup_range.map hinj, ?_⟩
  simp

/-- The count query is run with the first bind values of the data query. -/
theorem pageCount_eq_ok_iff (hparse : Core.parseSql parser sql = .ok (some st))
    {built : BuiltSql} (hsql : built.sql = sql) {count : List Char × List FilterValue} :
    pageCount D parser built = .ok count ↔
      count = (render (countTokens D st),
        built.bindValues.take ((render (countTokens D st)).count '?')) ∧
      ∀ v ∈ built.bindValues, ∀ vs, v ≠ .array vs := by
  subst hsql
  constructor
  · intro h
    rw [pageCount, countQueryFromSql_eq hparse] at h
    obtain ⟨args, hargs, h⟩ := exists_of_bind_eq_ok h
    obtain ⟨countSql, hcountSql, h⟩ := exists_of_bind_eq_ok h
    obtain ⟨countArgs, hcountArgs, h⟩ := exists_of_bind_eq_ok h
    cases h
    cases hcountSql
    obtain ⟨rfl, -⟩ := bindFilterValues_eq_ok_iff.mp hcountArgs
    exact ⟨rfl, (bindFilterValues_eq_ok_iff.mp hargs).2⟩
  · rintro ⟨rfl, hnone⟩
    rw [pageCount, countQueryFromSql_eq hparse, bindFilterValues_eq_ok_iff.mpr ⟨rfl, hnone⟩]
    have hfirst := bindFilterValues_eq_ok_iff.mpr ⟨rfl, fun v hv =>
      hnone v (List.mem_of_mem_take (i := (render (countTokens D st)).count '?') hv)⟩
    simp [Except.mapError, hfirst, bind, Except.bind, pure, Except.pure]

/-- The placeholders of the count query get the values they have in the data
query, whatever the bind values are, exactly when the clauses it leaves out
have no placeholder in front of one that it keeps, and no `?` of a kept word is
counted where some are left out. -/
theorem count_values_bound_iff (hD : PrintsItems D)
    (hparse : Core.parseSql parser sql = .ok (some st))
    (hquestions : marks (D.statement st) = (List.range n).map questionMark) :
    (∀ built : BuiltSql, built.sql = sql → built.bindValues.length = n → ∀ count,
      pageCount D parser built = .ok count →
        CountBound built.bindValues (countTokens D st) count) ↔
      KeepsBinds D st := by
  have hwhole : whole (placeholderParts D st) = (List.range n).map questionMark :=
    (marks_clauses hD st).trans hquestions
  have hkept := marks_countTokens (D := D) st
  have hsub : marks (countTokens D st) ⊆ (List.range n).map questionMark := by
    rw [hkept, ← hwhole]
    exact (kept_sublist _).subset
  have hnodup : (whole (placeholderParts D st)).Nodup := by
    rw [hwhole]
    exact List.nodup_range.map fun i j h => by simpa [questionMark] using h
  have hcount : (render (countTokens D st)).count '?' =
      (kept (placeholderParts D st)).length + strayQuestions (keptTokens D st) := by
    rw [count_render, hkept, (sameQuestions_countTokens st).2]
    intro m hm
    obtain ⟨i, -, rfl⟩ := List.mem_map.mp (hsub hm)
    rfl
  -- each place of the data query reads the bind value with its number
  have hreads : ∀ binds : List FilterValue, binds.length = n →
      ((List.range n).map questionMark).map (fun m => meaning binds m.origin) = binds.map some := by
    rintro binds rfl
    apply List.ext_getElem?
    intro i
    by_cases hi : i < binds.length
    · simp [hi, questionMark, meaning]
    · simp [hi]
  have hfirst : KeepsBinds D st ↔ marks (countTokens D st) =
      ((List.range n).map questionMark).take ((render (countTokens D st)).count '?') := by
    rw [hcount, hkept, ← hwhole, kept_eq_take_iff hnodup]
    rfl
  rw [hfirst]
  constructor
  · intro h
    obtain ⟨values, hlength, hdistinct, hnone⟩ := exists_distinct_values n
    have hbound := h ⟨sql, values⟩ rfl hlength _
      ((pageCount_eq_ok_iff hparse rfl).mpr ⟨rfl, hnone⟩)
    exact eq_take_of_forall₂ (hreads values hlength) hdistinct hsub hbound.bound
  · intro h built hsql hlength count hcount
    obtain ⟨rfl, -⟩ := (pageCount_eq_ok_iff hparse hsql).mp hcount
    refine ⟨rfl, ?_⟩
    have htake := forall₂_take (hreads built.bindValues hlength)
      ((render (countTokens D st)).count '?')
    rwa [← h] at htake

end Bound

/-! ### Examples -/

theorem printsItems_reference : PrintsItems Display.reference where
  quantifier distinct top := by
    cases top <;> simp [Display.reference, Reference.quantifier, Reference.topText,
      Reference.distinctText]
  projection items := by
    simp [Display.reference, Reference.projection, commaSep]
  exprWithAlias _ _ := by
    simp [Display.reference, Reference.projection, Reference.selectItem, commaSep]
  qualifiedWildcard _ := ⟨_, rfl⟩
  wildcard := rfl

namespace CountArgsExample

open Reference SqlxData.Dynamic SqlxData.Dynamic.Example

def argument (i : ℕ) : Expr := .value (.placeholder "?" (.argument i))

/-- `SELECT score * ? FROM players WHERE city = ?` -/
def scaled : Select :=
  simpleSelect [.unnamedExpr (.binaryOp (idExpr "score") (.other "*") (argument 0))] "players"
    (some (bin .eq (idExpr "city") (argument 1)))

/-- `SELECT name FROM players WHERE city = ? AND note <> 'why?'` -/
def cityPlayers : Select :=
  simpleSelect [.unnamedExpr (idExpr "name")] "players"
    (some (.binaryOp (bin .eq (idExpr "city") (argument 0)) .and
      (.binaryOp (idExpr "note") .notEq (.value (.singleQuotedString "why?")))))

/-- The first ten rows. -/
def firstTen (s : Select) : Query :=
  { simpleQuery (.select s) with
    limitClause := some (.limitOffset (some (.value (.number "10" false))) none []) }

def tenRows : Params := { Params.default with limit := some 10 }

def parser : Parser :=
  parserOfAll [simpleQuery (.select scaled), simpleQuery (.select cityPlayers), firstTen scaled,
    firstTen cityPlayers]

end CountArgsExample

open CountArgsExample Reference SqlxData.Dynamic.Example

/-- A factor in the projection: the count query compares the city with it. -/
theorem factor_counted_as_city :
    ∃ built, buildDynamicSql (build .mysql) Display.reference parser
        (text (simpleQuery (.select scaled))) tenRows [.int 2, .string "Bonn"] = .ok built ∧
      built.bindValues = [.int 2, .string "Bonn"] ∧
      Core.parseSql parser built.sql = .ok (some (.query (firstTen scaled))) ∧
      marks (Display.reference.statement (.query (firstTen scaled))) =
        (List.range 2).map questionMark ∧
      ∃ count, pageCount Display.reference parser built = .ok count ∧
        count = ("SELECT COUNT(*) FROM players WHERE city = ?".toList, [.int 2]) ∧
        ¬CountBound built.bindValues (countTokens Display.reference (.query (firstTen scaled)))
          count := by
  refine ⟨_, rfl, by decide, rfl, by decide, _, rfl, by decide, fun h => ?_⟩
  have hfirst := (List.forall₂_cons.mp h.bound).1
  revert hfirst
  decide

/-- With all placeholders in WHERE they keep their values. -/
theorem city_counted :
    ∃ built, buildDynamicSql (build .mysql) Display.reference parser
        (text (simpleQuery (.select cityPlayers))) tenRows [.string "Bonn"] = .ok built ∧
      ∃ count, pageCount Display.reference parser built = .ok count ∧
        CountBound built.bindValues
          (countTokens Display.reference (.query (firstTen cityPlayers))) count := by
  refine ⟨_, rfl, _, rfl, ?_⟩
  exact (@count_values_bound_iff Display.reference parser (text (firstTen cityPlayers))
    (.query (firstTen cityPlayers)) 1 printsItems_reference rfl (by decide)).mpr (by decide)
      _ rfl rfl _ rfl

end SqlxData.Count
