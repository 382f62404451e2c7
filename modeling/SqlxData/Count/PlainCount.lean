import SqlxData.Count.CountStatement
import SqlxData.Sqlparser.Reference

/-!
The count query of a SELECT that is neither DISTINCT nor an aggregate without
GROUP BY, and of every tree of set operations. A query that is counted as it
stands has to be a derived table; one whose projection is taken away loses its
aliases, which some servers read in WHERE and ON.
-/

namespace SqlxData.Count

open SqlxData.Sqlparser SqlxData.Core

variable {Env Scope V : Type} (E : Engine Env Scope V)

/-- A SELECT without a set quantifier and TOP that calls aggregates only
under GROUP BY or HAVING, and no function that returns a set. -/
structure PlainSelect (s : Select) : Prop where
  distinct : s.distinct = none
  top : s.top = none
  groupBy : ∃ exprs modifiers, s.groupBy = .expressions exprs modifiers
  aggregated : hasGroupBy s = true ∨ s.having.isSome ∨
    (itemExprs s.projection).any E.aggregated = false
  unrolled : (itemExprs s.projection).any E.unrolled = false
  rest : s.rest = []

structure PlainQuery (q : Query) : Prop where
  select : ∀ s, q.body = .select s → PlainSelect E s
  rest : q.rest = []

/-- What the projection may be taken from is not grouped. -/
theorem PlainSelect.ungrouped {s : Select} (hs : PlainSelect E s)
    (h : canOptimizeToSelect1 s = true) : Ungrouped s ∧ E.grouped none s = false := by
  simp only [canOptimizeToSelect1, Bool.and_eq_true, Bool.not_eq_true'] at h
  obtain ⟨⟨⟨⟨_, hgroup⟩, hhaving⟩, _⟩, _⟩ := h
  obtain ⟨exprs, modifiers, hexprs⟩ := hs.groupBy
  obtain rfl : exprs = [] := by simpa [hasGroupBy, hexprs] using hgroup
  have hnone : s.having = none := by simpa [hasHaving] using hhaving
  have hplain : (itemExprs s.projection).any E.aggregated = false := by
    obtain h | h | h := hs.aggregated
    · rw [hgroup] at h
      cases h
    · rw [hnone] at h
      cases h
    · exact h
  refine ⟨⟨hs.top, ⟨modifiers, hexprs⟩, hnone, hs.rest⟩, ?_⟩
  simpa [Engine.grouped, hexprs, hnone, hs.distinct, onKeys, orderExprs] using hplain

/-- The projection is replaced by `COUNT(*)` or by `1`. -/
def Replaced (q : Query) (s : Select) : Prop :=
  q.body = .select s ∧ canOptimizeToSelect1 s = true

/-- No condition of FROM or WHERE names an alias of the projection. -/
def NamesNoAlias (s : Select) : Prop :=
  ∀ e ∈ conditions s.from s.selection, E.naming.NamesNoAlias s.projection e

theorem resolvesAlone_of_namesNoAlias {q : Query} (haccepts : E.accepts (stripped q))
    {s : Select} (hbody : q.body = .select s) (h : NamesNoAlias E s) :
    E.resolvesAlone q s = true := by
  rw [accepts_stripped, hbody, acceptsBody_select] at haccepts
  simp only [Bool.and_eq_true] at haccepts
  obtain ⟨-, ⟨-, hresolves⟩, -⟩ := haccepts
  rw [Engine.resolvesAlone, ← hresolves]
  exact (E.resolves_noAlias _ _ _ _ _ h).symm

variable [DecidableEq V]

/-- The conditions of the SELECT do without its projection: their names are
found and as many rows pass. -/
def StandsAlone (env : Env) (outer : Scope) (q : Query) (s : Select) : Prop :=
  E.resolvesAlone q s = true ∧
    (E.sourceRows (E.evalWith env outer q.with) outer [] s).length =
      (E.sourceRows (E.evalWith env outer q.with) outer s.projection s).length

theorem standsAlone_of_namesNoAlias (env : Env) (outer : Scope) {q : Query}
    (haccepts : E.accepts (stripped q)) {s : Select} (hbody : q.body = .select s)
    (h : NamesNoAlias E s) : StandsAlone E env outer q s := by
  refine ⟨resolvesAlone_of_namesNoAlias E haccepts hbody h, ?_⟩
  rw [sourceRows_noAlias E _ outer h]

theorem countAgrees_iff_of_plain (env : Env) (outer : Scope) {q : Query} (h : PlainQuery E q)
    (haccepts : E.accepts (stripped q)) :
    CountAgrees E env outer q ↔ ((∀ s, ¬Replaced q s) → E.derivesBody q = true) ∧
      ∀ s, Replaced q s → StandsAlone E env outer q s := by
  by_cases hreplaced : ∃ s, Replaced q s
  · obtain ⟨s, hbody, hcan⟩ := hreplaced
    have hs := h.select s hbody
    obtain ⟨hungrouped, hgrouped⟩ := hs.ungrouped E hcan
    have hlength := length_evalBody_of_not_grouped E (E.evalWith env outer q.with) outer
      hs.distinct hs.top hs.rest hgrouped hs.unrolled
    rw [countAgrees_iff_of_canOptimize E env outer haccepts h.rest hbody hungrouped hs.distinct
      hcan, evalQuery_stripped E env outer h.rest, List.length_map, hbody, hlength]
    constructor
    · rintro hstands
      refine ⟨fun hnone => absurd ⟨hbody, hcan⟩ (hnone s), fun s' hs' => ?_⟩
      obtain rfl : s = s' := SetExpr.select.inj (hbody.symm.trans hs'.1)
      exact hstands
    · intro hstands
      exact hstands.2 s ⟨hbody, hcan⟩
  · have hkept : countStatement q none = countedRows q.with (Query.forCount q) := by
      by_cases hselect : ∃ s, q.body = .select s
      · obtain ⟨s, hbody⟩ := hselect
        have hs := h.select s hbody
        apply countStatement_of_not_canOptimize hbody hs.distinct hs.top
        rw [← Bool.not_eq_true]
        exact fun hcan => hreplaced ⟨s, hbody, hcan⟩
      · exact countStatement_of_not_select fun s hs => hselect ⟨s, hs⟩
    have hnone : ∀ s, ¬Replaced q s := fun s hs => hreplaced ⟨s, hs⟩
    rw [countAgrees_iff_of_kept E env outer haccepts hkept]
    constructor
    · intro hderives
      exact ⟨fun _ => hderives, fun s hs => absurd hs (hnone s)⟩
    · intro hboth
      exact hboth.1 hnone

/-- The WITH clause is part of every count query. -/
theorem with_countStatement (q : Query) (pk : Option String) :
    (countStatement q pk).with = q.with := by
  unfold countStatement
  split <;> rfl

namespace Example

/-- `WITH kept AS (SELECT x FROM t WHERE x IS NOT NULL)
SELECT x FROM t CROSS JOIN kept`. -/
def pairs : Query where
  «with» := some ⟨false, [⟨.new "kept",
    queryOf { selectFrom none x with selection := some (.isNotNull x) }⟩]⟩
  body := .select { selectFrom none x with
    «from» := [⟨.table [.new "t"] none, [⟨.table [.new "kept"] none, ⟨.cross, .none⟩⟩]⟩] }
  orderBy := none
  limitClause := some (.limitOffset (some (.value (.number "2" false))) none [])
  fetch := none
  rest := []

theorem plainQuery_pairs : PlainQuery server pairs where
  select := by
    intro s hs
    injection hs with hs
    subst hs
    exact ⟨rfl, rfl, ⟨[], [], rfl⟩, .inr (.inr rfl), rfl, rfl⟩
  rest := rfl

/-- `SELECT x AS y FROM t WHERE y IS NOT NULL`. -/
def aliased : Query :=
  queryOf { selectFrom none x with
    projection := [.exprWithAlias x (.new "y")]
    selection := some (.isNotNull (.identifier (.new "y"))) }

theorem plainQuery_aliased : PlainQuery server aliased where
  select := by
    intro s hs
    injection hs with hs
    subst hs
    exact ⟨rfl, rfl, ⟨[], [], rfl⟩, .inr (.inr rfl), rfl, rfl⟩
  rest := rfl

end Example

end SqlxData.Count
