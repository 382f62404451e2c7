import SqlxData.Macros.ScopeSystem
import SqlxData.Sqlparser.Condition
import SqlxData.Sqlparser.Reference

/-!
The WHERE and HAVING of a statement with scopes, printed and read back: the
rows and groups that pass, against those that satisfy the clauses of the base
statement and all scopes.
-/

namespace SqlxData.Macros

open SqlxData.Sqlparser SqlxData.Core BoolText BoolText.Formula ThreeValued

/-- The parser groups conditions by precedence: what it returns is in
canonical shape. -/
def CanonicalParser (parser : Parser) : Prop :=
  ∀ sql q select, parseSql parser sql = .ok (some (.query q)) → q.body = .select select →
    (∀ e ∈ select.selection, e.skeleton.Canonical) ∧ ∀ e ∈ select.having, e.skeleton.Canonical

/-! ### Conditions of scopes -/

section Scopes

variable {parser : Parser}

theorem parseQuery_eq_ok {sql : List Char} {notQuery : String} {q : Query}
    (h : parseQuery parser sql notQuery = .ok q) :
    parseSql parser sql = .ok (some (.query q)) := by
  obtain ⟨statementOpt, hparse, h⟩ := exists_of_bind_eq_ok h
  cases hsql : parseSql parser sql with
  | error err => simp [hsql, Except.mapError] at hparse
  | ok parsed =>
      simp only [hsql, Except.mapError, Except.ok.injEq] at hparse
      subst hparse
      rcases parsed with _ | _ | _
      · cases h
      · rw [Except.ok.inj h]
      · cases h

theorem parseSelect_eq_ok {sql : List Char} {notQuery notSelect : String} {select : Select}
    (h : parseSelect parser sql notQuery notSelect = .ok select) :
    ∃ q, parseSql parser sql = .ok (some (.query q)) ∧ q.body = .select select := by
  obtain ⟨q, hquery, h⟩ := exists_of_bind_eq_ok h
  refine ⟨q, parseQuery_eq_ok hquery, ?_⟩
  cases hbody : q.body <;> simp_all

/-- The condition of a WHERE scope. -/
def whereCondition (parser : Parser) : ScopeDefinition → Except SynError Expr :=
  parseCondition parser "SELECT 1 WHERE " "WHERE" Select.selection

/-- The condition of a HAVING scope. -/
def havingCondition (parser : Parser) : ScopeDefinition → Except SynError Expr :=
  parseCondition parser "SELECT 1 HAVING " "HAVING" Select.having

theorem parseCondition_canonical {start clause : String} {conditionOf : Select → Option Expr}
    (hclause : ∀ sql q select, parseSql parser sql = .ok (some (.query q)) →
      q.body = .select select → ∀ e ∈ conditionOf select, e.skeleton.Canonical)
    {scope : ScopeDefinition} {condition : Expr}
    (h : parseCondition parser start clause conditionOf scope = .ok condition) :
    condition.skeleton.Canonical := by
  obtain ⟨select, hselect, h⟩ := exists_of_bind_eq_ok h
  obtain ⟨q, hparse, hbody⟩ := parseSelect_eq_ok hselect
  cases hcondition : conditionOf select with
  | none => simp [hcondition] at h
  | some e =>
      simp only [hcondition, Except.ok.injEq] at h
      subst h
      exact hclause _ q select hparse hbody e (by simp [hcondition])

/-- The conditions are those of the scopes, one for each. -/
theorem forall_mapM_iff {conditionOf : ScopeDefinition → Except SynError Expr}
    {scopes : List ScopeDefinition} {conditions : List Expr}
    (h : scopes.mapM conditionOf = .ok conditions) (P : Expr → Prop) :
    (∀ e ∈ conditions, P e) ↔ ∀ scope ∈ scopes, ∀ e, conditionOf scope = .ok e → P e := by
  induction scopes generalizing conditions with
  | nil =>
      obtain rfl := Except.ok.inj h
      simp
  | cons scope scopes ih =>
      rw [List.mapM_cons] at h
      obtain ⟨e, he, h⟩ := exists_of_bind_eq_ok h
      obtain ⟨es, hes, h⟩ := exists_of_bind_eq_ok h
      obtain rfl := Except.ok.inj h
      rw [List.forall_mem_cons, List.forall_mem_cons, ih hes, he]
      simp

end Scopes

/-! ### A clause with conditions added -/

/-- The added conditions are written behind the existing one, without
parentheses. -/
theorem addConditions_eq_ok {existing clause : Option Expr} {conditions : List Expr}
    (h : addConditions existing conditions = .ok clause) :
    (existing.toList ++ conditions = [] ∧ clause = none) ∨
      ∃ e es joined, existing.toList ++ conditions = e :: es ∧ clause = some joined ∧
        joined.skeleton.print = (e.skeleton.andAll (es.map Expr.skeleton)).print := by
  cases conditions with
  | nil =>
      obtain rfl := Except.ok.inj h
      cases existing with
      | none => exact Or.inl ⟨rfl, rfl⟩
      | some e => exact Or.inr ⟨e, [], e, rfl, rfl, rfl⟩
  | cons condition conditions =>
      rw [addConditions] at h
      simp only [List.isEmpty_cons, Bool.false_eq_true, if_false] at h
      obtain ⟨joined, hjoined, h⟩ := exists_of_bind_eq_ok h
      obtain rfl := Except.ok.inj h
      refine Or.inr ?_
      cases existing with
      | none =>
          obtain rfl := Except.ok.inj hjoined
          exact ⟨condition, conditions, _, rfl, rfl, congrArg print (skeleton_foldl_and _ _)⟩
      | some e =>
          obtain rfl := Except.ok.inj hjoined
          exact ⟨e, condition :: conditions, _, rfl, rfl, print_and_foldl_and _ _ _⟩

/-- On one row, a clause with added conditions means all of them exactly when
every run brings all of them along. -/
theorem passesClause_iff {existing clause : Option Expr} {conditions : List Expr}
    (h : addConditions existing conditions = .ok clause)
    (hcanonical : ∀ e ∈ existing.toList ++ conditions, e.skeleton.Canonical)
    (value : Expr → Truth) :
    (PassesClause value clause ↔
        (∀ e ∈ existing, Satisfies value e) ∧ ∀ e ∈ conditions, Satisfies value e) ↔
      RunsComplete value (existing.toList ++ conditions) := by
  have hall : ((∀ e ∈ existing, Satisfies value e) ∧ ∀ e ∈ conditions, Satisfies value e) ↔
      ∀ e ∈ existing.toList ++ conditions, Satisfies value e := by
    rw [List.forall_mem_append]
    simp
  rw [hall]
  rcases addConditions_eq_ok h with ⟨hnil, rfl⟩ | ⟨e, es, joined, hcons, rfl, hprint⟩
  · simp [hnil, PassesClause, RunsComplete]
  · rw [hcons] at hcanonical ⊢
    have hexact := @passesText_iff_runsComplete value e joined es hcanonical hprint
    simpa [PassesClause] using hexact

/-! ### The statement with scopes -/

/-- The row or group satisfies every active scope of the target. -/
def SatisfiesScopes (value : Expr → Truth) (conditionOf : ScopeDefinition → Except SynError Expr)
    (m : ScopeManager) (target : ScopeTarget) : Prop :=
  ∀ scope ∈ m.getActiveScopes, scope.target = target → ∀ e, conditionOf scope = .ok e →
    Satisfies value e

theorem mem_getScopesByTarget {m : ScopeManager} {it : m.Iteration} {target : ScopeTarget}
    {scope : ScopeDefinition} :
    scope ∈ ScopeManager.getScopesByTarget it target ↔
      scope ∈ m.getActiveScopes ∧ scope.target = target := by
  simp [ScopeManager.getScopesByTarget, it.perm.mem_iff]

variable {parser : Parser} {m : ScopeManager} {it : m.Iteration}

/-- The clauses of the SELECT once the scopes are applied. -/
theorem applyScopesToQuery_eq_ok {q q' : Query} {select : Select}
    (h : applyScopesToQuery parser it q select = .ok q') :
    ∃ select' whereConditions havingConditions, q'.body = .select select' ∧
      buildWhereConditions parser (ScopeManager.getScopesByTarget it .where) =
        .ok whereConditions ∧
      buildHavingConditions parser (ScopeManager.getScopesByTarget it .having) =
        .ok havingConditions ∧
      addConditions select.selection whereConditions = .ok select'.selection ∧
      addConditions select.having havingConditions = .ok select'.having := by
  obtain ⟨whereConditions, hwhere, h⟩ := exists_of_bind_eq_ok h
  obtain ⟨selection, hselection, h⟩ := exists_of_bind_eq_ok h
  obtain ⟨items, -, h⟩ := exists_of_bind_eq_ok h
  obtain ⟨orderExprs, -, h⟩ := exists_of_bind_eq_ok h
  obtain ⟨tables, -, h⟩ := exists_of_bind_eq_ok h
  obtain ⟨joined, -, h⟩ := exists_of_bind_eq_ok h
  obtain ⟨groupBy, -, h⟩ := exists_of_bind_eq_ok h
  obtain ⟨havingConditions, hhaving, h⟩ := exists_of_bind_eq_ok h
  obtain ⟨having, haddHaving, h⟩ := exists_of_bind_eq_ok h
  obtain rfl := Except.ok.inj h
  exact ⟨_, whereConditions, havingConditions, rfl, hwhere, hhaving, hselection, haddHaving⟩

/-- Conditions without a top-level OR are one run, on every row. -/
theorem runsComplete_of_single {es : List Expr}
    (hsingle : ∀ e ∈ es, e.skeleton.alternatives = [e.skeleton]) (value : Expr → Truth) :
    RunsComplete value es := by
  intro run hrun hholds e he
  rw [weave_of_single (List.forall_mem_map.mpr hsingle)] at hrun
  obtain rfl := List.mem_singleton.mp hrun
  exact hholds _ (List.mem_map_of_mem he)

/-- Isolation of scopes, whatever order the scope map is gone through in: on
one row (group), the WHERE (HAVING) of the returned text means the base clause
and all active scopes exactly when every run of the juxtaposed conditions
brings all of them along; by `runsComplete_of_single` always when none of them
has a top-level OR. MySQL's XOR and `||` are operands here. -/
theorem scopes_isolated_iff {D : Display} {sql out : List Char} {q : Query} {select : Select}
    (hparser : CanonicalParser parser) (hparse : parseSql parser sql = .ok (some (.query q)))
    (hbody : q.body = .select select) (happly : applyScopesToSql parser D m it sql = .ok out) :
    (m.getActiveScopes = [] ∧ out = sql) ∨
    ∃ q' select' whereConditions havingConditions,
      out = render (D.query q') ∧ q'.body = .select select' ∧
      buildWhereConditions parser (ScopeManager.getScopesByTarget it .where) =
        .ok whereConditions ∧
      buildHavingConditions parser (ScopeManager.getScopesByTarget it .having) =
        .ok havingConditions ∧
      ∀ value,
        ((PassesClause value select'.selection ↔ (∀ e ∈ select.selection, Satisfies value e) ∧
            SatisfiesScopes value (whereCondition parser) m .where) ↔
          RunsComplete value (select.selection.toList ++ whereConditions)) ∧
        ((PassesClause value select'.having ↔ (∀ e ∈ select.having, Satisfies value e) ∧
            SatisfiesScopes value (havingCondition parser) m .having) ↔
          RunsComplete value (select.having.toList ++ havingConditions)) := by
  rw [applyScopesToSql] at happly
  cases hactive : m.hasActiveScopes with
  | false =>
      simp only [hactive, Bool.not_false, if_true, Except.ok.injEq] at happly
      exact Or.inl ⟨by simpa [ScopeManager.hasActiveScopes] using hactive, happly.symm⟩
  | true =>
      simp only [hactive, Bool.not_true, Bool.false_eq_true, if_false] at happly
      obtain ⟨query, hquery, happly⟩ := exists_of_bind_eq_ok happly
      obtain rfl : query = q := by
        have h := (parseQuery_eq_ok hquery).symm.trans hparse
        simpa using h
      simp only [hbody] at happly
      obtain ⟨q', hscoped, happly⟩ := exists_of_bind_eq_ok happly
      obtain rfl := Except.ok.inj happly
      obtain ⟨select', whereConditions, havingConditions, hbody', hwhere, hhaving, hselection,
        haddHaving⟩ := applyScopesToQuery_eq_ok hscoped
      refine Or.inr ⟨q', select', whereConditions, havingConditions, rfl, hbody', hwhere, hhaving,
        fun value => ⟨?_, ?_⟩⟩
      · have hscopes : SatisfiesScopes value (whereCondition parser) m .where ↔
            ∀ e ∈ whereConditions, Satisfies value e := by
          rw [forall_mapM_iff hwhere]
          simp only [mem_getScopesByTarget, and_imp]
          rfl
        rw [hscopes]
        refine passesClause_iff hselection (List.forall_mem_append.mpr ⟨?_, ?_⟩) value
        · simpa using (hparser sql query select hparse hbody).1
        · rw [forall_mapM_iff hwhere]
          exact fun scope _ e he => parseCondition_canonical
            (fun sql q select hsql hq => (hparser sql q select hsql hq).1) he
      · have hscopes : SatisfiesScopes value (havingCondition parser) m .having ↔
            ∀ e ∈ havingConditions, Satisfies value e := by
          rw [forall_mapM_iff hhaving]
          simp only [mem_getScopesByTarget, and_imp]
          rfl
        rw [hscopes]
        refine passesClause_iff haddHaving (List.forall_mem_append.mpr ⟨?_, ?_⟩) value
        · simpa using (hparser sql query select hparse hbody).2
        · rw [forall_mapM_iff hhaving]
          exact fun scope _ e he => parseCondition_canonical
            (fun sql q select hsql hq => (hparser sql q select hsql hq).2) he

/-! ### Examples -/

namespace ScopeExample

open Reference

def comparison (name : String) (op : BinaryOperator) (n : String) : Expr :=
  .binaryOp (.identifier (.new name)) op (.value (.number n false))

def users (condition : Expr) : Query :=
  simpleQuery (.select (simpleSelect [.wildcard] "users" (some condition)))

/-- `SELECT 1 WHERE tenant_id = 7`, the text the scope is parsed in. -/
def tenantText : Query :=
  simpleQuery (.select { simpleSelect [.unnamedExpr (.value (.number "1" false))] "users"
    (some (comparison "tenant_id" .eq "7")) with «from» := [] })

def tenantScope : ScopeManager := ScopeManager.new.addScope "tenant" "tenant_id = 7" .where

def onlyOrder (m : ScopeManager) : m.Iteration := ⟨m.getActiveScopes, List.Perm.refl _⟩

/-- `admin = 1 OR age > 18` -/
def adminOrAdult : Expr := .binaryOp (comparison "admin" .eq "1") .or (comparison "age" .gt "18")

/-- An administrator of another tenant: only the comparison of `admin` holds. -/
def otherTenant : Expr → Truth
  | .binaryOp (.identifier name) .eq _ => if name.value = "admin" then .holds else .fails
  | _ => .fails

end ScopeExample

open ScopeExample Reference

/-- A base WHERE with a top-level OR: the administrator of another tenant
passes the WHERE of the scoped text. -/
theorem scope_bypassed :
    applyScopesToSql (parserOfAll [users adminOrAdult, tenantText]) Display.reference tenantScope
        (onlyOrder tenantScope) (text (users adminOrAdult)) =
      .ok "SELECT * FROM users WHERE admin = 1 OR age > 18 AND tenant_id = 7".toList ∧
    ∃ where', addConditions (some adminOrAdult) [comparison "tenant_id" .eq "7"] =
        .ok (some where') ∧
      ("SELECT * FROM users WHERE ".toList ++ render (Display.reference.expr where')) =
        "SELECT * FROM users WHERE admin = 1 OR age > 18 AND tenant_id = 7".toList ∧
      ¬(PassesClause otherTenant (some where') ↔
        (∀ e ∈ some adminOrAdult, Satisfies otherTenant e) ∧
          SatisfiesScopes otherTenant
            (whereCondition (parserOfAll [users adminOrAdult, tenantText])) tenantScope .where) := by
  refine ⟨by decide, _, rfl, by decide, fun h => ?_⟩
  have hscopes := (h.mp (by rintro e ⟨⟩; exact ⟨_, rfl, rfl⟩)).2
  have htenant : Truth.fails = Truth.holds :=
    hscopes ⟨"tenant", "tenant_id = 7", .where⟩ (by decide) rfl (comparison "tenant_id" .eq "7") rfl
  cases htenant

theorem mem_of_parserOfAll {qs : List Query} {sql : List Char} {q : Query}
    (h : parseSql (parserOfAll qs) sql = .ok (some (.query q))) : q ∈ qs := by
  rw [parseSql] at h
  split at h
  · cases h
  cases hfind : qs.find? fun q => text q = sql with
  | none => simp [parserOfAll, hfind] at h
  | some found =>
      simp only [parserOfAll, hfind, Option.map_some, List.length_singleton, gt_iff_lt,
        Nat.lt_irrefl, if_false, List.head?_cons, Except.ok.injEq, Option.some.injEq,
        Statement.query.injEq] at h
      rw [← h]
      exact List.mem_of_find?_eq_some hfind

/-- Without an OR in the base WHERE or the scope, the theorem gives isolation
on every row. -/
theorem scopes_isolated_adults :
    ∃ q' select' whereConditions havingConditions,
      "SELECT * FROM users WHERE age > 18 AND tenant_id = 7".toList =
        render (Display.reference.query q') ∧ q'.body = .select select' ∧
      buildWhereConditions (parserOfAll [users (comparison "age" .gt "18"), tenantText])
        (ScopeManager.getScopesByTarget (onlyOrder tenantScope) .where) = .ok whereConditions ∧
      buildHavingConditions (parserOfAll [users (comparison "age" .gt "18"), tenantText])
        (ScopeManager.getScopesByTarget (onlyOrder tenantScope) .having) = .ok havingConditions ∧
      ∀ value,
        ((PassesClause value select'.selection ↔
            (∀ e ∈ some (comparison "age" .gt "18"), Satisfies value e) ∧
            SatisfiesScopes value (whereCondition
              (parserOfAll [users (comparison "age" .gt "18"), tenantText])) tenantScope .where) ↔
          RunsComplete value ((some (comparison "age" .gt "18")).toList ++ whereConditions)) ∧
        ((PassesClause value select'.having ↔ (∀ e ∈ (none : Option Expr), Satisfies value e) ∧
            SatisfiesScopes value (havingCondition
              (parserOfAll [users (comparison "age" .gt "18"), tenantText])) tenantScope .having) ↔
          RunsComplete value ((none : Option Expr).toList ++ havingConditions)) := by
  have hparser : CanonicalParser (parserOfAll [users (comparison "age" .gt "18"), tenantText]) := by
    intro sql q select hsql hbody
    have hq := mem_of_parserOfAll hsql
    simp only [List.mem_cons, List.not_mem_nil, or_false] at hq
    rcases hq with rfl | rfl <;> cases hbody <;>
      simp [simpleSelect, comparison, Expr.skeleton, Canonical, FitsAt]
  exact (@scopes_isolated_iff (parserOfAll [users (comparison "age" .gt "18"), tenantText])
    tenantScope (onlyOrder tenantScope) Display.reference (text (users (comparison "age" .gt "18")))
    _ (users (comparison "age" .gt "18")) _ hparser rfl rfl rfl).resolve_left (by decide)

end SqlxData.Macros
