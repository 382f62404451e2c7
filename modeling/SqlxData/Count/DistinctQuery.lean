import SqlxData.Count.PlainCount

/-!
The count query of a DISTINCT query. Most of them are counted in a derived
table; one with a single expression is counted by the distinct values of that
expression, which leaves NULL out and does not look at the wildcards of the
projection, its aliases or the keys of DISTINCT ON.
-/

namespace SqlxData.Count

open SqlxData.Sqlparser SqlxData.Core DistinctCount

/-- A SELECT DISTINCT or DISTINCT ON. -/
structure DistinctSelect (s : Select) : Prop where
  distinct : s.distinct = some .distinct ∨ ∃ keys, s.distinct = some (.on keys)
  top : s.top = none
  groupBy : ∃ exprs modifiers, s.groupBy = .expressions exprs modifiers
  rest : s.rest = []

theorem DistinctSelect.isSome {s : Select} (hs : DistinctSelect s) : s.distinct.isSome := by
  obtain h | ⟨keys, h⟩ := hs.distinct <;> simp [h]

theorem Shortcut.with_eq_none {q : Query} {s : Select} {e : Expr} (h : Shortcut q s e) :
    q.with = none := by
  simpa [hasCte] using h.cte

theorem Shortcut.ungrouped {q : Query} {s : Select} {e : Expr} (h : Shortcut q s e)
    (hs : DistinctSelect s) : Ungrouped s := by
  obtain ⟨exprs, modifiers, hexprs⟩ := hs.groupBy
  obtain rfl : exprs = [] := by simpa [hasGroupBy, hexprs] using h.groupBy
  exact ⟨hs.top, ⟨modifiers, hexprs⟩, by simpa [hasHaving] using h.having, hs.rest⟩

theorem Shortcut.itemExprs {q : Query} {s : Select} {e : Expr} (h : Shortcut q s e) :
    itemExprs s.projection = [e] :=
  h.only

variable {Env Scope V : Type} (E : Engine Env Scope V)

theorem aggregated_of_plain {e : Expr} (h : E.plain e) : E.aggregated e = false := by
  simp only [Engine.plain, Bool.and_eq_true, Bool.not_eq_true'] at h
  exact h.1.1

theorem unrolled_of_plain {e : Expr} (h : E.plain e) : E.unrolled e = false := by
  simp only [Engine.plain, Bool.and_eq_true, Bool.not_eq_true'] at h
  exact h.2

variable [DecidableEq V] (env : Env) (outer : Scope)

/-- An expression that calls no aggregate has the value the server gives it. -/
theorem evaluate_of_plain {e : Expr} (h : E.plain e) (windows : List Expr)
    (groups : List (List Scope)) (group : List Scope) :
    E.evaluate env outer windows groups group e = E.value env outer windows e groups group := by
  unfold Engine.evaluate
  split
  case h_1 name treatment args =>
    split_ifs with hname
    · -- A call of COUNT is an aggregate.
      subst hname
      have hagg := aggregated_of_plain E h
      simp [Engine.aggregated, calls, Engine.isAggregate] at hagg
    · rfl
  case h_2 => rfl

namespace Engine

/-- The value of an expression on a source row. -/
def valueOn (s : Select) (e : Expr) (row : Scope) : Option V :=
  E.value env outer s.namedWindow e ((E.sourceRows env outer s.projection s).map ([·])) [row]

/-- The projection of a source row. -/
def tupleOn (s : Select) (row : Scope) : List (Row V) :=
  s.projection.map
    (E.item env outer s.namedWindow ((E.sourceRows env outer s.projection s).map ([·])) [row])

/-- The rows of a SELECT before DISTINCT. -/
def outputsOf (s : Select) : List (Output Scope V) :=
  E.allOutputs env outer s (E.groupsOf env outer none s (E.sourceRows env outer s.projection s))

/-- Do the distinct values of the expression stand for the distinct rows?
Under DISTINCT no value may be missing and equal values must come from equal
projections; under DISTINCT ON there must be as many values as keys. -/
def ValuesStandForRows (s : Select) (e : Expr) : Prop :=
  match s.distinct with
  | some (.on _) =>
      E.distinctValues env outer s.namedWindow e (E.sourceRows env outer s.projection s) =
        ((E.outputsOf env outer s).map (·.keys)).dedup.length
  | _ =>
      (∀ row ∈ E.sourceRows env outer s.projection s, (E.valueOn env outer s e row).isSome) ∧
        ∀ row ∈ E.sourceRows env outer s.projection s,
          ∀ row' ∈ E.sourceRows env outer s.projection s,
            E.valueOn env outer s e row = E.valueOn env outer s e row' →
              E.tupleOn env outer s row = E.tupleOn env outer s row'

/-- Does `COUNT(DISTINCT e)` in place of the projection count the rows? It has
to be a call the server takes, and the conditions have to be read without the
projection. Where other rows pass them then, these need as many values as there
are rows to count. -/
structure DistinctCounted (q : Query) (s : Select) (e : Expr) : Prop where
  plain : E.plain e = true
  resolves : E.resolvesAlone q s = true
  alike : E.sourceRows env outer [] s = E.sourceRows env outer s.projection s →
    E.ValuesStandForRows env outer s e
  unlike : E.sourceRows env outer [] s ≠ E.sourceRows env outer s.projection s →
    E.distinctValues env outer s.namedWindow e (E.sourceRows env outer [] s) =
      (distinctOutputs s.distinct (E.outputsOf env outer s)).length

end Engine

/-- Equal projections have the same value of the expression in them. -/
theorem valueOn_eq_of_tupleOn_eq {q : Query} {s : Select} {e : Expr} (h : Shortcut q s e)
    (hplain : E.plain e) {row row' : Scope}
    (htuple : E.tupleOn env outer s row = E.tupleOn env outer s row') :
    E.valueOn env outer s e row = E.valueOn env outer s e row' := by
  have hitems := List.map_inj_left.mp htuple
  have hmem : e ∈ itemExprs s.projection := by rw [h.itemExprs]; exact List.mem_singleton_self e
  obtain ⟨item, hitem, he⟩ := List.mem_filterMap.mp hmem
  have heval := hitems item hitem
  cases item with
  | unnamedExpr e' =>
      obtain rfl : e' = e := Option.some_inj.mp he
      simpa only [Engine.item, evaluate_of_plain E env outer hplain, List.cons.injEq, and_true,
        Engine.valueOn] using heval
  | exprWithAlias e' name =>
      obtain rfl : e' = e := Option.some_inj.mp he
      simpa only [Engine.item, evaluate_of_plain E env outer hplain, List.cons.injEq, and_true,
        Engine.valueOn] using heval
  | qualifiedWildcard name => cases he
  | wildcard => cases he

theorem length_evalBody_distinct {s : Select} (hs : DistinctSelect s) :
    (E.evalBody env outer none (.select s)).length =
      (Engine.distinctOutputs s.distinct (E.outputsOf env outer s)).length := by
  rw [evalBody_select, Engine.select]
  simp [hs.rest, hs.top, Engine.selectBehind, Engine.sorted, Engine.topped, Engine.outputsOf,
    Engine.sourceRows]

/-- A projection without aggregates has one row for each source row. -/
theorem map_tuple_outputsOf {s : Select} (hs : Ungrouped s) (hdistinct : s.distinct = some .distinct)
    {e : Expr} (honly : itemExprs s.projection = [e]) (hplain : E.plain e) :
    (E.outputsOf env outer s).map (·.tuple) =
      (E.sourceRows env outer s.projection s).map (E.tupleOn env outer s) := by
  obtain ⟨_, ⟨modifiers, hgroup⟩, hhaving, _⟩ := hs
  have hgrouped : E.grouped none s = false := by
    simp [Engine.grouped, hgroup, hhaving, hdistinct, honly, onKeys, orderExprs,
      aggregated_of_plain E hplain]
  have houtputs (groups : List (List Scope)) (group : List Scope) :
      E.outputs env outer s groups group =
        [⟨s.projection.map (E.item env outer s.namedWindow groups group), [], group⟩] := by
    simp [Engine.outputs, hdistinct, honly, onKeys, unrolled_of_plain E hplain]
  simp [Engine.outputsOf, Engine.groupsOf, hgrouped, Engine.allOutputs, houtputs,
    List.flatMap_map, Engine.tupleOn, ← List.map_eq_flatMap]

/-- Counting distinct values counts the rows exactly when the values stand for
the rows. -/
theorem distinctValues_eq_iff {q : Query} {s : Select} (hs : DistinctSelect s) {e : Expr}
    (h : Shortcut q s e) (hplain : E.plain e) :
    E.distinctValues env outer s.namedWindow e (E.sourceRows env outer s.projection s) =
        (E.evalBody env outer none (.select s)).length ↔
      E.ValuesStandForRows env outer s e := by
  rw [length_evalBody_distinct E env outer hs, Engine.ValuesStandForRows]
  obtain hdistinct | ⟨keys, hdistinct⟩ := hs.distinct
  · rw [hdistinct]
    simp only [Engine.distinctOutputs]
    rw [length_firstOfEach,
      map_tuple_outputsOf E env outer (h.ungrouped hs) hdistinct h.itemExprs hplain]
    exact length_dedup_values_eq_images_iff (E.valueOn env outer s e) (E.tupleOn env outer s) _
      fun row _ row' _ => valueOn_eq_of_tupleOn_eq E env outer h hplain
  · rw [hdistinct]
    simp only [Engine.distinctOutputs]
    rw [length_firstOfEach]

/-- The distinct values are counted among the rows that pass the conditions
without the projection. -/
theorem distinctCounted_iff {q : Query} {s : Select} (hs : DistinctSelect s) {e : Expr}
    (h : Shortcut q s e) (hplain : E.plain e) :
    E.resolvesAlone q s = true ∧
        E.distinctValues env outer s.namedWindow e (E.sourceRows env outer [] s) =
          (E.evalBody env outer none (.select s)).length ↔
      E.DistinctCounted env outer q s e := by
  have hiff := distinctValues_eq_iff E env outer hs h hplain
  constructor
  · rintro ⟨hresolves, hlength⟩
    refine ⟨hplain, hresolves, fun halike => ?_, fun _ => ?_⟩
    · rw [← hiff, ← halike]
      exact hlength
    · rw [← length_evalBody_distinct E env outer hs]
      exact hlength
  · intro hcounted
    refine ⟨hcounted.resolves, ?_⟩
    by_cases halike : E.sourceRows env outer [] s = E.sourceRows env outer s.projection s
    · rw [halike, hiff]
      exact hcounted.alike halike
    · rw [hcounted.unlike halike, length_evalBody_distinct E env outer hs]

/-- Where no condition names an alias the values alone decide. -/
theorem distinctCounted_of_namesNoAlias {q : Query} (haccepts : E.accepts (stripped q))
    {s : Select} (hbody : q.body = .select s) (hnames : NamesNoAlias E s) (e : Expr) :
    E.DistinctCounted env outer q s e ↔ E.plain e = true ∧ E.ValuesStandForRows env outer s e := by
  have halike := sourceRows_noAlias E env outer hnames
  constructor
  · intro hcounted
    exact ⟨hcounted.plain, hcounted.alike halike.symm⟩
  · rintro ⟨hplain, hvalues⟩
    exact ⟨hplain, resolvesAlone_of_namesNoAlias E haccepts hbody hnames, fun _ => hvalues,
      fun hunlike => absurd halike.symm hunlike⟩

/-- The count of a DISTINCT query is right exactly when the query is taken as a
derived table, or counted by the distinct values of its only expression and
these count its rows. -/
theorem distinct_count_agrees_iff (D : Display) (q : Query) (s : Select)
    (hbody : q.body = .select s) (hs : DistinctSelect s) (hrest : q.rest = [])
    (haccepts : E.accepts (stripped q)) :
    generateCountQuery D (.query q) none = render (D.query (countStatement q none)) ∧
      (CountAgrees E env outer q ↔ ((∀ e, ¬Shortcut q s e) → E.derivesBody q = true) ∧
        ∀ e, Shortcut q s e → E.DistinctCounted env outer q s e) ∧
      (NamesNoAlias E s → ∀ e, E.DistinctCounted env outer q s e ↔
        E.plain e = true ∧ E.ValuesStandForRows env outer s e) := by
  refine ⟨generateCountQuery_eq D q none, ?_,
    distinctCounted_of_namesNoAlias E env outer haccepts hbody⟩
  by_cases hshort : ∃ e, Shortcut q s e
  · obtain ⟨e, h⟩ := hshort
    have hunique (e' : Expr) (h' : Shortcut q s e') : e' = e := by
      have heq := h'.only.symm.trans h.only
      exact List.head_eq_of_cons_eq heq
    have hstatement := countStatement_of_shortcut hbody hs.isSome hs.top h
    have hboth : (((∀ e, ¬Shortcut q s e) → E.derivesBody q = true) ∧
        ∀ e, Shortcut q s e → E.DistinctCounted env outer q s e) ↔
          E.DistinctCounted env outer q s e := by
      constructor
      · intro hall
        exact hall.2 e h
      · intro hcounted
        refine ⟨fun hnone => absurd h (hnone e), fun e' h' => ?_⟩
        rw [hunique e' h']
        exact hcounted
    rw [hboth]
    cases hplain : E.plain e with
    | false =>
        have hrefused := run_distinctSelect_of_not_plain E env outer haccepts hbody hplain
        rw [CountAgrees, hstatement, hrefused]
        refine iff_of_false (Option.some_ne_none _).symm fun hcounted => ?_
        exact Bool.false_ne_true (hplain.symm.trans hcounted.plain)
    | true =>
        have hrun := run_distinctSelect E env outer haccepts hrest hbody (h.ungrouped hs) hplain
        rw [← hstatement] at hrun
        rw [countAgrees_iff_of_run E env outer hrun, evalQuery_stripped E env outer hrest, hbody,
          List.length_map, h.with_eq_none]
        exact distinctCounted_iff E env outer hs h hplain
  · have hnone : ∀ e, ¬Shortcut q s e := fun e h => hshort ⟨e, h⟩
    have hkept := countStatement_of_no_shortcut hbody hs.isSome hs.top hnone
    rw [countAgrees_iff_of_kept E env outer haccepts hkept]
    constructor
    · intro hderives
      exact ⟨fun _ => hderives, fun e h => absurd h (hnone e)⟩
    · intro hboth
      exact hboth.1 hnone

namespace Example

/-- `SELECT DISTINCT x FROM t`. -/
def distinctX : Query := queryOf (selectFrom (some .distinct) x)

theorem shortcut_distinctX : Shortcut distinctX (selectFrom (some .distinct) x) x :=
  ⟨rfl, rfl, rfl, rfl, rfl, rfl⟩

end Example

/-- Without NULL the two distinct values are counted. -/
theorem distinct_count_kept :
    CountAgrees Example.server [("t", [some 1, some 1, some 2])] [] Example.distinctX := by
  obtain ⟨-, hagrees, hcounted⟩ := distinct_count_agrees_iff Example.server
    [("t", [some 1, some 1, some 2])] [] .reference Example.distinctX _ rfl
    ⟨.inl rfl, rfl, ⟨[], [], rfl⟩, rfl⟩ rfl rfl
  have hnames : NamesNoAlias Example.server (Example.selectFrom (some .distinct) Example.x) := by
    intro e he
    cases he
  refine hagrees.mpr ⟨fun hnone => absurd Example.shortcut_distinctX (hnone _), fun e h => ?_⟩
  obtain rfl : e = Example.x := List.head_eq_of_cons_eq (h.only.symm.trans
    Example.shortcut_distinctX.only)
  exact (hcounted hnames _).mpr ⟨rfl, by decide, by decide⟩

/-- Two rows, of which COUNT leaves the NULL out. -/
theorem distinct_null_lost :
    ¬CountAgrees Example.server [("t", [some 1, none])] [] Example.distinctX := by
  rw [CountAgrees]
  decide

end SqlxData.Count
