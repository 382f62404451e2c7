import SqlxData.Count.PlainCount

/-!
The count query of an aggregate without GROUP BY. Its rows form one group; a
count query that takes the projection away loses the aggregate and with it the
group, and the aliases its conditions may name.
-/

namespace SqlxData.Count

open SqlxData.Sqlparser SqlxData.Core

variable {Env Scope V : Type} (E : Engine Env Scope V)

/-- A SELECT without GROUP BY that calls an aggregate in its projection. -/
structure AggregateSelect (s : Select) : Prop where
  aggregated : (itemExprs s.projection).any E.aggregated
  groupBy : ∃ modifiers, s.groupBy = .expressions [] modifiers
  top : s.top = none
  rest : s.rest = []

/-- The query is counted as it stands, in a derived table. -/
def CountedAsItStands (q : Query) (s : Select) : Prop :=
  hasHaving s ∨ hasWindowFunctions s ∨ hasComplexSubqueryInFromOrJoin s ∨
    s.distinct.isSome ∧ ∀ e, ¬Shortcut q s e

/-- The only expression of an aggregate cannot stand inside COUNT. -/
theorem not_plain_of_shortcut {q : Query} {s : Select} {e : Expr} (hs : AggregateSelect E s)
    (h : Shortcut q s e) : E.plain e = false := by
  have honly : itemExprs s.projection = [e] := h.only
  have hagg := hs.aggregated
  rw [honly] at hagg
  simp only [List.any_cons, List.any_nil, Bool.or_false] at hagg
  simp [Engine.plain, hagg]

theorem canOptimizeToSelect1_iff {q : Query} {s : Select} (hs : AggregateSelect E s)
    (hdistinct : s.distinct = none) :
    canOptimizeToSelect1 s = true ↔ ¬CountedAsItStands q s := by
  obtain ⟨modifiers, hgroup⟩ := hs.groupBy
  simp [canOptimizeToSelect1, CountedAsItStands, hdistinct, hasGroupBy, hgroup, and_assoc]

theorem countStatement_of_countedAsItStands {q : Query} {s : Select} (hbody : q.body = .select s)
    (hs : AggregateSelect E s) (hstands : CountedAsItStands q s) :
    countStatement q none = countedRows q.with (Query.forCount q) := by
  cases hdistinct : s.distinct with
  | none =>
      apply countStatement_of_not_canOptimize hbody hdistinct hs.top
      rw [← Bool.not_eq_true, canOptimizeToSelect1_iff E (q := q) hs hdistinct, not_not]
      exact hstands
  | some d =>
      apply countStatement_of_no_shortcut hbody (by rw [hdistinct]; rfl) hs.top
      -- Whatever makes the query stand as it is excludes the shortcut.
      intro e h
      obtain hhaving | hwindow | hcomplex | ⟨_, hnone⟩ := hstands
      · exact Bool.false_ne_true (h.having.symm.trans hhaving)
      · exact Bool.false_ne_true (h.window.symm.trans hwindow)
      · exact Bool.false_ne_true
          (h.derived.symm.trans (hasSubqueryInFromOrJoin_of_complex hcomplex))
      · exact hnone e h

variable [DecidableEq V] (env : Env) (outer : Scope)

namespace Engine

/-- The rows the projection makes of all source rows as one group: one, unless
it has a function that returns a set. -/
def groupOutputs (s : Select) : List (Output Scope V) :=
  E.outputs env outer s [E.sourceRows env outer s.projection s]
    (E.sourceRows env outer s.projection s)

end Engine

/-- An aggregate without GROUP BY, HAVING and DISTINCT returns its only group. -/
theorem length_evalBody_group {s : Select} (hs : AggregateSelect E s) (hhaving : s.having = none)
    (hdistinct : s.distinct = none) :
    (E.evalBody env outer none (.select s)).length = (E.groupOutputs env outer s).length := by
  obtain ⟨modifiers, hgroup⟩ := hs.groupBy
  have hgrouped : E.grouped none s := by
    simp only [Engine.grouped, List.any_append, hs.aggregated, Bool.true_or, Bool.or_true]
  have hgroups (rows : List Scope) : E.groupsOf env outer none s rows = [rows] := by
    simp [Engine.groupsOf, hgrouped, hgroup, hhaving]
  rw [evalBody_select, Engine.select, hgroups]
  simp [Engine.allOutputs, hs.rest, hs.top, hdistinct, Engine.selectBehind, Engine.sorted,
    Engine.distinctOutputs, Engine.topped, Engine.groupOutputs, Engine.sourceRows]

/-- Without the projection there is no group: as many rows have to pass the
conditions as the projection makes of the group. -/
structure GroupCounted (env : Env) (outer : Scope) (q : Query) (s : Select) : Prop where
  distinct : s.distinct = none
  resolves : E.resolvesAlone q s = true
  rows : (E.sourceRows (E.evalWith env outer q.with) outer [] s).length =
    (E.groupOutputs (E.evalWith env outer q.with) outer s).length

/-- Where no condition names an alias, the rows that pass are those of the group. -/
theorem groupCounted_of_namesNoAlias {q : Query} (haccepts : E.accepts (stripped q)) {s : Select}
    (hbody : q.body = .select s) (hnames : NamesNoAlias E s) :
    GroupCounted E env outer q s ↔ s.distinct = none ∧
      (E.sourceRows (E.evalWith env outer q.with) outer s.projection s).length =
        (E.groupOutputs (E.evalWith env outer q.with) outer s).length := by
  rw [sourceRows_noAlias E _ outer hnames]
  constructor
  · intro hcounted
    exact ⟨hcounted.distinct, hcounted.rows⟩
  · rintro ⟨hdistinct, hrows⟩
    exact ⟨hdistinct, resolvesAlone_of_namesNoAlias E haccepts hbody hnames, hrows⟩

/-- The count of an aggregate without GROUP BY is right exactly when the query
is counted as it stands and taken as a derived table, or there is no DISTINCT,
the conditions are read without the projection and as many rows pass them as the
projection makes of the one group. -/
theorem aggregate_count_agrees_iff (D : Display) (q : Query) (s : Select)
    (hbody : q.body = .select s) (hs : AggregateSelect E s) (hrest : q.rest = [])
    (haccepts : E.accepts (stripped q)) :
    generateCountQuery D (.query q) none = render (D.query (countStatement q none)) ∧
      (CountAgrees E env outer q ↔ (CountedAsItStands q s → E.derivesBody q = true) ∧
        (¬CountedAsItStands q s → GroupCounted E env outer q s)) ∧
      (NamesNoAlias E s → (GroupCounted E env outer q s ↔ s.distinct = none ∧
        (E.sourceRows (E.evalWith env outer q.with) outer s.projection s).length =
          (E.groupOutputs (E.evalWith env outer q.with) outer s).length)) := by
  refine ⟨generateCountQuery_eq D q none, ?_,
    groupCounted_of_namesNoAlias E env outer haccepts hbody⟩
  by_cases hstands : CountedAsItStands q s
  · have hkept := countStatement_of_countedAsItStands E hbody hs hstands
    simp [hstands, countAgrees_iff_of_kept E env outer haccepts hkept]
  · have hnot : ((CountedAsItStands q s → E.derivesBody q = true) ∧
        (¬CountedAsItStands q s → GroupCounted E env outer q s)) ↔
          GroupCounted E env outer q s := by
      simp [hstands]
    rw [hnot]
    cases hdistinct : s.distinct with
    | none =>
        have hcan := (canOptimizeToSelect1_iff E hs hdistinct).mpr hstands
        have hhaving : s.having = none := by
          simpa [hasHaving] using fun h => hstands (.inl h)
        have hungrouped : Ungrouped s := ⟨hs.top, hs.groupBy, hhaving, hs.rest⟩
        rw [countAgrees_iff_of_canOptimize E env outer haccepts hrest hbody hungrouped hdistinct
            hcan, evalQuery_stripped E env outer hrest, hbody, List.length_map,
          length_evalBody_group E _ outer hs hhaving hdistinct]
        constructor
        · rintro ⟨hresolves, hrows⟩
          exact ⟨hdistinct, hresolves, hrows⟩
        · intro hcounted
          exact ⟨hcounted.resolves, hcounted.rows⟩
    | some d =>
        have hsome : s.distinct.isSome := by rw [hdistinct]; rfl
        obtain ⟨e, h⟩ : ∃ e, Shortcut q s e := by
          by_contra hnone
          exact hstands (.inr (.inr (.inr ⟨hsome, fun e h => hnone ⟨e, h⟩⟩)))
        have hrefused := run_distinctSelect_of_not_plain E env outer haccepts hbody
          (not_plain_of_shortcut E hs h)
        rw [CountAgrees, countStatement_of_shortcut hbody hsome hs.top h, hrefused]
        refine iff_of_false (Option.some_ne_none _).symm fun hcounted => ?_
        have hnone := hdistinct.symm.trans hcounted.distinct
        cases hnone

namespace Example

/-- `SELECT SUM(x) FROM t`. -/
def total : Query := queryOf (selectFrom none sumX)

theorem aggregateSelect_total : AggregateSelect server (selectFrom none sumX) :=
  ⟨rfl, ⟨[], rfl⟩, rfl, rfl⟩

end Example

/-- The sum of one row is one row. -/
theorem aggregate_count_kept :
    CountAgrees Example.server [("t", [some 5])] [] Example.total := by
  have hiff := aggregate_count_agrees_iff Example.server [("t", [some 5])] [] .reference
    Example.total _ rfl Example.aggregateSelect_total rfl rfl
  refine hiff.2.1.mpr ⟨fun _ => rfl, fun _ => ⟨rfl, rfl, rfl⟩⟩

/-- The sum of two rows is one row, but two are counted. -/
theorem aggregate_rows_counted :
    ¬CountAgrees Example.server [("t", [some 5, some 7])] [] Example.total := by
  rw [CountAgrees]
  decide

end SqlxData.Count
