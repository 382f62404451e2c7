import SqlxData.Lib.JoinOrder
import SqlxData.Macros.ScopeText

/-!
The order in which the scope map is gone through. Every target collects what
its scopes add, one behind the other; the statement does not depend on the
order of the map exactly when these parts commute, and when the conditions of
WHERE and HAVING have the same effect on every row in every order.
-/

namespace SqlxData.Macros

open SqlxData.Sqlparser SqlxData.Core JoinOrder BoolText BoolText.Formula ThreeValued

/-! ### What a scope adds -/

section Parts

variable (parser : Parser)

/-- The tables of a FROM scope. -/
def fromTables (scope : ScopeDefinition) : Except SynError (List TableWithJoins) := do
  let parsed ← parseSelect parser (dummyText "SELECT * FROM " scope)
    ("Invalid FROM scope (not a query): " ++ scope.sql)
    ("Invalid FROM scope (not a SELECT expr): " ++ scope.sql)
  .ok parsed.from

/-- The table a JOIN scope is parsed with, if there is one. -/
def joinTable (scope : ScopeDefinition) : Except SynError (Option TableWithJoins) := do
  let parsed ← parseSelect parser (dummyText "SELECT * FROM __dummy__ " scope)
    ("Invalid JOIN scope (not a query): " ++ scope.sql)
    ("Invalid JOIN scope (not a SELECT expr): " ++ scope.sql)
  .ok parsed.from.head?

def scopeGroupBy (scope : ScopeDefinition) : Except SynError GroupByExpr := do
  let parsed ← parseSelect parser (dummyText "SELECT * GROUP BY " scope)
    ("Invalid GROUP BY scope (not a query): " ++ scope.sql)
    ("Invalid GROUP BY scope (not a SELECT expr): " ++ scope.sql)
  .ok parsed.groupBy

def attachJoins (tables : List TableWithJoins) : Option TableWithJoins → List TableWithJoins
  | some table => appendJoins tables table
  | none => tables

def extendGroupBy : GroupByExpr → GroupByExpr → GroupByExpr
  | .expressions destExprs destModifiers, .expressions exprs modifiers =>
      .expressions (destExprs ++ exprs) (destModifiers ++ modifiers)
  | _, .expressions exprs modifiers => .expressions exprs modifiers
  | .all destModifiers, .all modifiers => .all (destModifiers ++ modifiers)
  | _, .all modifiers => .all modifiers

theorem addFrom_eq (tables : List TableWithJoins) (scope : ScopeDefinition) :
    addFrom parser tables scope = (fromTables parser scope).map (tables ++ ·) := by
  rw [addFrom, fromTables]
  cases parseSelect parser (dummyText "SELECT * FROM " scope) _ _ <;> rfl

theorem addJoin_eq (tables : List TableWithJoins) (scope : ScopeDefinition) :
    addJoin parser tables scope = (joinTable parser scope).map (attachJoins tables) := by
  rw [addJoin, joinTable]
  cases parseSelect parser (dummyText "SELECT * FROM __dummy__ " scope) _ _ with
  | error err => rfl
  | ok parsed =>
      cases h : parsed.from.head? <;> simp [bind, Except.bind, Except.map, attachJoins, h]

theorem addGroupBy_eq (groupBy : GroupByExpr) (scope : ScopeDefinition) :
    addGroupBy parser groupBy scope = (scopeGroupBy parser scope).map (extendGroupBy groupBy) := by
  rw [addGroupBy, scopeGroupBy]
  cases parseSelect parser (dummyText "SELECT * GROUP BY " scope) _ _ with
  | error err => rfl
  | ok parsed =>
      cases h : parsed.groupBy <;> cases groupBy <;>
        simp [bind, Except.bind, Except.map, extendGroupBy, h]

/-- The text of the scope parses as the target needs it. -/
def ParsesAs (target : ScopeTarget) (scope : ScopeDefinition) : Prop :=
  match target with
  | .select => (parseScopeAsSelectItem parser scope).isOk
  | .from => (fromTables parser scope).isOk
  | .join => (joinTable parser scope).isOk
  | .where => (whereCondition parser scope).isOk
  | .groupBy => (scopeGroupBy parser scope).isOk
  | .having => (havingCondition parser scope).isOk
  | .orderBy => (orderByExpressionsOf parser scope).isOk

def Parses (scope : ScopeDefinition) : Prop := ParsesAs parser scope.target scope

/-- The part of a scope, if its text parses. -/
def added {β : Type} (part : ScopeDefinition → Except SynError β) (scope : ScopeDefinition) :
    List β :=
  (part scope).toOption.toList

theorem added_of_ok {β : Type} {part : ScopeDefinition → Except SynError β}
    {scope : ScopeDefinition} {b : β} (h : part scope = .ok b) : added part scope = [b] := by
  rw [added, h]
  rfl

/-- The tables added by the FROM scopes and the joins of the JOIN scopes, each
in the given order. -/
def tablesWith (tables : List TableWithJoins) (fromScopes joinScopes : List ScopeDefinition) :
    List TableWithJoins :=
  (joinScopes.flatMap (added (joinTable parser))).foldl attachJoins
    (tables ++ fromScopes.flatMap fun scope => (added (fromTables parser) scope).flatten)

theorem foldl_fromTables (tables : List TableWithJoins) (scopes : List ScopeDefinition) :
    (scopes.flatMap (added (fromTables parser))).foldl (· ++ ·) tables =
      tables ++ scopes.flatMap fun scope => (added (fromTables parser) scope).flatten := by
  have happend := @List.foldl_append_eq_append _ _
    (scopes.flatMap (added (fromTables parser))) id tables
  rw [List.map_id] at happend
  refine happend.trans ?_
  simp only [List.flatten_eq_flatMap, List.flatMap_assoc]

end Parts

section Runs

variable {β σ : Type} {part : ScopeDefinition → Except SynError β}

theorem mapM_eq_ok_iff {scopes : List ScopeDefinition} {parts : List β} :
    scopes.mapM part = .ok parts ↔
      (∀ scope ∈ scopes, (part scope).isOk) ∧ scopes.flatMap (added part) = parts := by
  induction scopes generalizing parts with
  | nil => simp [pure, Except.pure]
  | cons scope scopes ih =>
      rw [List.mapM_cons, List.forall_mem_cons, List.flatMap_cons]
      cases hpart : part scope with
      | error err => simp [bind, Except.bind, Except.isOk, Except.toBool]
      | ok part' =>
          rw [added_of_ok hpart]
          constructor
          · intro h
            obtain ⟨_, hfirst, h⟩ := exists_of_bind_eq_ok h
            obtain rfl := Except.ok.inj hfirst
            obtain ⟨rest, hrest, h⟩ := exists_of_bind_eq_ok h
            obtain ⟨hok, hall⟩ := ih.mp hrest
            obtain rfl := Except.ok.inj h
            exact ⟨⟨rfl, hok⟩, by rw [hall]; rfl⟩
          · rintro ⟨⟨-, hok⟩, rfl⟩
            have hrest := ih.mpr ⟨hok, rfl⟩
            simp [bind, Except.bind, hrest, pure, Except.pure]

/-- A run that adds one part after the other. -/
theorem foldlM_eq_ok_iff {step : σ → ScopeDefinition → Except SynError σ} {op : σ → β → σ}
    (hstep : ∀ s scope, step s scope = (part scope).map (op s)) {scopes : List ScopeDefinition}
    {s s' : σ} :
    scopes.foldlM step s = .ok s' ↔
      (∀ scope ∈ scopes, (part scope).isOk) ∧ (scopes.flatMap (added part)).foldl op s = s' := by
  induction scopes generalizing s with
  | nil => simp [pure, Except.pure]
  | cons scope scopes ih =>
      rw [List.foldlM_cons, List.forall_mem_cons, List.flatMap_cons, hstep]
      cases hpart : part scope with
      | error err => simp [bind, Except.bind, Except.map, Except.isOk, Except.toBool]
      | ok part' =>
          have hbind : (Except.map (op s) (.ok part') >>= fun s' => scopes.foldlM step s') =
              scopes.foldlM step (op s part') := rfl
          rw [added_of_ok hpart, hbind, ih]
          simp [Except.isOk, Except.toBool]

end Runs

/-! ### The statement with scopes -/

section Statement

variable {parser : Parser} {m : ScopeManager} {it : m.Iteration}

/-- Conditions can always be added. -/
theorem exists_addConditions (existing : Option Expr) (conditions : List Expr) :
    ∃ clause, addConditions existing conditions = .ok clause := by
  rcases conditions with _ | ⟨condition, conditions⟩ <;> rcases existing with _ | e <;>
    exact ⟨_, rfl⟩

theorem parses_iff_forall (it : m.Iteration) :
    (∀ scope ∈ m.getActiveScopes, Parses parser scope) ↔
      ∀ target, ∀ scope ∈ ScopeManager.getScopesByTarget it target,
        ParsesAs parser target scope := by
  simp only [mem_getScopesByTarget, and_imp]
  constructor
  · rintro h _ scope hscope rfl
    exact h scope hscope
  · exact fun h scope hscope => h _ scope hscope rfl

/-- Each target collects the parts of its scopes in the order of the map. -/
theorem applyScopesToQuery_clauses {q q' : Query} {select : Select}
    (h : applyScopesToQuery parser it q select = .ok q') :
    (∀ scope ∈ m.getActiveScopes, Parses parser scope) ∧ ∃ selection having,
      addConditions select.selection ((ScopeManager.getScopesByTarget it .where).flatMap
        (added (whereCondition parser))) = .ok selection ∧
      addConditions select.having ((ScopeManager.getScopesByTarget it .having).flatMap
        (added (havingCondition parser))) = .ok having ∧
      q' = { q with
        body := .select { select with
          projection := select.projection ++
            (ScopeManager.getScopesByTarget it .select).flatMap
              (added (parseScopeAsSelectItem parser))
          «from» := tablesWith parser select.from (ScopeManager.getScopesByTarget it .from)
            (ScopeManager.getScopesByTarget it .join)
          selection := selection
          groupBy := ((ScopeManager.getScopesByTarget it .groupBy).flatMap
            (added (scopeGroupBy parser))).foldl extendGroupBy select.groupBy
          having := having }
        orderBy := addOrderBy q.orderBy ((ScopeManager.getScopesByTarget it .orderBy).flatMap
          (added (orderByExpressionsOf parser))).flatten } := by
  obtain ⟨whereConditions, hwhere, h⟩ := exists_of_bind_eq_ok h
  obtain ⟨selection, hselection, h⟩ := exists_of_bind_eq_ok h
  obtain ⟨items, hitems, h⟩ := exists_of_bind_eq_ok h
  obtain ⟨orderExprs, horder, h⟩ := exists_of_bind_eq_ok h
  obtain ⟨tables, htables, h⟩ := exists_of_bind_eq_ok h
  obtain ⟨joined, hjoined, h⟩ := exists_of_bind_eq_ok h
  obtain ⟨groupBy, hgroupBy, h⟩ := exists_of_bind_eq_ok h
  obtain ⟨havingConditions, hhaving, h⟩ := exists_of_bind_eq_ok h
  obtain ⟨having, haddHaving, h⟩ := exists_of_bind_eq_ok h
  obtain rfl := Except.ok.inj h
  obtain ⟨exprs, hexprs, horder⟩ := exists_of_bind_eq_ok horder
  obtain rfl := Except.ok.inj horder
  obtain ⟨hparsesWhere, rfl⟩ := mapM_eq_ok_iff.mp hwhere
  obtain ⟨hparsesItems, rfl⟩ := mapM_eq_ok_iff.mp hitems
  obtain ⟨hparsesOrder, rfl⟩ := mapM_eq_ok_iff.mp hexprs
  obtain ⟨hparsesFrom, rfl⟩ := (foldlM_eq_ok_iff (addFrom_eq parser)).mp htables
  obtain ⟨hparsesJoin, rfl⟩ := (foldlM_eq_ok_iff (addJoin_eq parser)).mp hjoined
  obtain ⟨hparsesGroupBy, rfl⟩ := (foldlM_eq_ok_iff (addGroupBy_eq parser)).mp hgroupBy
  obtain ⟨hparsesHaving, rfl⟩ := mapM_eq_ok_iff.mp hhaving
  refine ⟨(parses_iff_forall it).mpr fun target scope hscope => ?_, selection, having,
    hselection, haddHaving, by rw [tablesWith, foldl_fromTables]⟩
  cases target with
  | select => exact hparsesItems scope hscope
  | «from» => exact hparsesFrom scope hscope
  | join => exact hparsesJoin scope hscope
  | «where» => exact hparsesWhere scope hscope
  | groupBy => exact hparsesGroupBy scope hscope
  | having => exact hparsesHaving scope hscope
  | orderBy => exact hparsesOrder scope hscope

/-- The clauses whose parts depend on the order of the map. -/
theorem applyScopesToQuery_parts {q q' : Query} {select : Select}
    (h : applyScopesToQuery parser it q select = .ok q') :
    (∀ scope ∈ m.getActiveScopes, Parses parser scope) ∧
    ∃ select', q'.body = .select select' ∧
      select'.projection = select.projection ++
        (ScopeManager.getScopesByTarget it .select).flatMap
          (added (parseScopeAsSelectItem parser)) ∧
      select'.from = tablesWith parser select.from (ScopeManager.getScopesByTarget it .from)
        (ScopeManager.getScopesByTarget it .join) ∧
      addConditions select.selection ((ScopeManager.getScopesByTarget it .where).flatMap
        (added (whereCondition parser))) = .ok select'.selection ∧
      addConditions select.having ((ScopeManager.getScopesByTarget it .having).flatMap
        (added (havingCondition parser))) = .ok select'.having ∧
      q'.orderBy = addOrderBy q.orderBy ((ScopeManager.getScopesByTarget it .orderBy).flatMap
        (added (orderByExpressionsOf parser))).flatten := by
  obtain ⟨hparses, selection, having, hselection, hhaving, rfl⟩ := applyScopesToQuery_clauses h
  exact ⟨hparses, _, rfl, rfl, rfl, hselection, hhaving, rfl⟩

theorem exists_bind_eq_ok {α β : Type} {x : Except SynError α} {f : α → Except SynError β} {a : α}
    (hx : x = .ok a) (h : ∃ b, f a = .ok b) : ∃ b, x >>= f = .ok b := by
  rw [hx]
  exact h

/-- A statement gets its scopes as soon as each of them parses. -/
theorem exists_applyScopesToQuery (it : m.Iteration) (q : Query) (select : Select)
    (h : ∀ scope ∈ m.getActiveScopes, Parses parser scope) :
    ∃ q', applyScopesToQuery parser it q select = .ok q' := by
  have hok := (parses_iff_forall it).mp h
  have hwhere := mapM_eq_ok_iff.mpr ⟨hok .where, rfl⟩
  have hitems := mapM_eq_ok_iff.mpr ⟨hok .select, rfl⟩
  have horder := mapM_eq_ok_iff.mpr ⟨hok .orderBy, rfl⟩
  have htables : ∀ tables, _ := fun tables =>
    (foldlM_eq_ok_iff (s := tables) (addFrom_eq parser)).mpr ⟨hok .from, rfl⟩
  have hjoined : ∀ tables, _ := fun tables =>
    (foldlM_eq_ok_iff (s := tables) (addJoin_eq parser)).mpr ⟨hok .join, rfl⟩
  have hgroupBy : ∀ groupBy, _ := fun groupBy =>
    (foldlM_eq_ok_iff (s := groupBy) (addGroupBy_eq parser)).mpr ⟨hok .groupBy, rfl⟩
  have hhaving := mapM_eq_ok_iff.mpr ⟨hok .having, rfl⟩
  have hexprs : buildOrderByExpressions parser (ScopeManager.getScopesByTarget it .orderBy) =
      .ok ((ScopeManager.getScopesByTarget it .orderBy).flatMap
        (added (orderByExpressionsOf parser))).flatten := by
    rw [buildOrderByExpressions, horder]
    rfl
  obtain ⟨selection, hselection⟩ := exists_addConditions select.selection
    ((ScopeManager.getScopesByTarget it .where).flatMap (added (whereCondition parser)))
  obtain ⟨having, haddHaving⟩ := exists_addConditions select.having
    ((ScopeManager.getScopesByTarget it .having).flatMap (added (havingCondition parser)))
  apply exists_bind_eq_ok hwhere
  apply exists_bind_eq_ok hselection
  apply exists_bind_eq_ok hitems
  apply exists_bind_eq_ok hexprs
  apply exists_bind_eq_ok (htables _)
  apply exists_bind_eq_ok (hjoined _)
  apply exists_bind_eq_ok (hgroupBy _)
  apply exists_bind_eq_ok hhaving
  apply exists_bind_eq_ok haddHaving
  exact ⟨_, rfl⟩

end Statement

/-! ### Orders of the scope map -/

section Orders

variable {m : ScopeManager}

def activeFor (m : ScopeManager) (target : ScopeTarget) : List ScopeDefinition :=
  m.getActiveScopes.filter (·.target = target)

/-- The order the scopes are kept in. -/
def keptOrder (m : ScopeManager) : m.Iteration :=
  ⟨m.getActiveScopes, (List.Perm.refl m.scopes).filter _⟩

theorem perm_activeFor (it : m.Iteration) (target : ScopeTarget) :
    (ScopeManager.getScopesByTarget it target).Perm (activeFor m target) := it.perm.filter _

/-- The scopes of one target can come in any order, with the others as they
are kept. -/
theorem exists_iteration {target : ScopeTarget} {scopes : List ScopeDefinition}
    (h : scopes.Perm (activeFor m target)) :
    ∃ it : m.Iteration, ScopeManager.getScopesByTarget it target = scopes ∧
      ∀ other, other ≠ target → ScopeManager.getScopesByTarget it other = activeFor m other := by
  have htarget : ∀ scope ∈ scopes, scope.target = target := by
    intro scope hscope
    simpa using (List.mem_filter.mp (h.mem_iff.mp hscope)).2
  refine ⟨⟨scopes ++ m.getActiveScopes.filter fun scope => !decide (scope.target = target), ?_⟩,
    ?_, fun other hother => ?_⟩
  · exact (h.append_right _).trans (List.filter_append_perm _ _)
  · simp only [ScopeManager.getScopesByTarget, List.filter_append, List.filter_filter]
    rw [List.filter_eq_self.mpr (by simpa using htarget), List.filter_eq_nil_iff.mpr (by simp),
      List.append_nil]
  · simp only [ScopeManager.getScopesByTarget, List.filter_append, List.filter_filter, activeFor]
    rw [List.filter_eq_nil_iff.mpr (by
      intro scope hscope
      simpa [htarget scope hscope] using hother.symm), List.nil_append]
    refine List.filter_congr fun scope _ => ?_
    by_cases hscope : scope.target = other <;> simp [hscope, hother]

theorem forall_iterations_iff {β : Type} (F : List ScopeDefinition → β) (target : ScopeTarget) :
    (∀ it it' : m.Iteration, F (ScopeManager.getScopesByTarget it target) =
      F (ScopeManager.getScopesByTarget it' target)) ↔
    ∀ scopes, scopes.Perm (activeFor m target) → F scopes = F (activeFor m target) := by
  constructor
  · intro h scopes hperm
    obtain ⟨it, rfl, -⟩ := exists_iteration hperm
    exact h it (keptOrder m)
  · intro h it it'
    rw [h _ (perm_activeFor it target), h _ (perm_activeFor it' target)]

/-- Any two scopes add the same list in either order. -/
def Commuting {β : Type} (scopes : List ScopeDefinition) (part : ScopeDefinition → List β) : Prop :=
  ∀ a ∈ scopes, ∀ b ∈ scopes, part a ++ part b = part b ++ part a

theorem flatMap_iterations_iff {β : Type} (part : ScopeDefinition → List β)
    (target : ScopeTarget) :
    (∀ it it' : m.Iteration, (ScopeManager.getScopesByTarget it target).flatMap part =
      (ScopeManager.getScopesByTarget it' target).flatMap part) ↔
    Commuting (activeFor m target) part :=
  (forall_iterations_iff (·.flatMap part) target).trans (flatMap_perm_iff part _)

end Orders

/-! ### FROM and JOIN -/

section Tables

def joinsOf : Option TableWithJoins → List Join
  | some table => table.joins
  | none => []

theorem appendJoins_append (front : List TableWithJoins) (relation : TableFactor)
    (joins : List Join) (table : TableWithJoins) :
    appendJoins (front ++ [⟨relation, joins⟩]) table =
      front ++ [⟨relation, joins ++ table.joins⟩] := by
  induction front with
  | nil => rfl
  | cons t front ih => cases front <;> simp_all [appendJoins]

/-- The joins of the scopes all end up at the last table. -/
theorem foldl_attachJoins_append (front : List TableWithJoins) (relation : TableFactor)
    (joins : List Join) (joined : List (Option TableWithJoins)) :
    joined.foldl attachJoins (front ++ [⟨relation, joins⟩]) =
      front ++ [⟨relation, joins ++ joined.flatMap joinsOf⟩] := by
  induction joined generalizing joins with
  | nil => simp
  | cons table joined ih =>
      cases table with
      | none => simpa [attachJoins, joinsOf] using ih joins
      | some table =>
          rw [List.foldl_cons, attachJoins, appendJoins_append, ih, List.flatMap_cons,
            List.append_assoc]
          rfl

/-- Without a table to join to, the first scope brings its own. -/
theorem foldl_attachJoins_nil (joined : List (Option TableWithJoins)) :
    joined.foldl attachJoins [] =
      (joined.filterMap id).head?.toList.map fun t => ⟨t.relation, joined.flatMap joinsOf⟩ := by
  induction joined with
  | nil => rfl
  | cons table joined ih =>
      cases table with
      | none => simpa [attachJoins, joinsOf] using ih
      | some table =>
          obtain ⟨relation, joins⟩ := table
          have hlast := foldl_attachJoins_append [] relation joins joined
          simpa [attachJoins, appendJoins, joinsOf] using hlast

theorem joins_eq_of_foldl {tables : List TableWithJoins}
    {joined joined' : List (Option TableWithJoins)} (hperm : joined.Perm joined')
    (h : joined.foldl attachJoins tables = joined'.foldl attachJoins tables) :
    joined.flatMap joinsOf = joined'.flatMap joinsOf := by
  rcases List.eq_nil_or_concat tables with rfl | ⟨front, ⟨relation, joins⟩, rfl⟩
  · rw [foldl_attachJoins_nil, foldl_attachJoins_nil] at h
    cases hhead : (joined.filterMap id).head? with
    | none =>
        -- no scope joins anything
        have hnone : ∀ t ∈ joined, t = none := by
          intro t ht
          rw [List.head?_eq_none_iff, List.filterMap_eq_nil_iff] at hhead
          exact hhead t ht
        have hempty : ∀ js : List (Option TableWithJoins), (∀ t ∈ js, t = none) →
            js.flatMap joinsOf = [] := by
          intro js hjs
          rw [List.flatMap_eq_nil_iff]
          intro t ht
          rw [hjs t ht]
          rfl
        rw [hempty joined hnone, hempty joined' fun t ht => hnone t (hperm.mem_iff.mpr ht)]
    | some t =>
        cases hhead' : (joined'.filterMap id).head? with
        | none =>
            rw [hhead, hhead'] at h
            cases h
        | some t' =>
            rw [hhead, hhead'] at h
            simp only [Option.toList_some, List.map_singleton, List.cons.injEq,
              TableWithJoins.mk.injEq, and_true] at h
            exact h.2
  · rw [List.concat_eq_append, foldl_attachJoins_append, foldl_attachJoins_append] at h
    simpa using h

theorem tables_eq_of_foldl {tables tables' : List TableWithJoins}
    {joined : List (Option TableWithJoins)} (hnil : tables = [] ↔ tables' = [])
    (h : joined.foldl attachJoins tables = joined.foldl attachJoins tables') :
    tables = tables' := by
  rcases List.eq_nil_or_concat tables with rfl | ⟨front, ⟨relation, joins⟩, rfl⟩
  · exact (hnil.mp rfl).symm
  rcases List.eq_nil_or_concat tables' with rfl | ⟨front', ⟨relation', joins'⟩, rfl⟩
  · exact hnil.mpr rfl
  simp only [List.concat_eq_append, foldl_attachJoins_append] at h ⊢
  obtain ⟨hfront, hlast⟩ := List.append_inj' h rfl
  simp only [List.cons.injEq, TableWithJoins.mk.injEq, and_true] at hlast
  rw [hfront, hlast.1, List.append_cancel_right hlast.2]

/-- What comes first without a table to join to gives the relation. -/
theorem relation_eq_of_foldl {table table' : TableWithJoins}
    {joined joined' : List (Option TableWithJoins)}
    (h : (some table :: joined).foldl attachJoins [] =
      (some table' :: joined').foldl attachJoins []) :
    table.relation = table'.relation := by
  rw [foldl_attachJoins_nil, foldl_attachJoins_nil] at h
  exact (TableWithJoins.mk.inj (List.cons.inj h).1).1

theorem foldl_attachJoins_perm {tables : List TableWithJoins}
    {joined joined' : List (Option TableWithJoins)} (hperm : joined.Perm joined')
    (hjoins : joined.flatMap joinsOf = joined'.flatMap joinsOf)
    (hrelation : tables = [] → ∀ t t', some t ∈ joined → some t' ∈ joined →
      t.relation = t'.relation) :
    joined.foldl attachJoins tables = joined'.foldl attachJoins tables := by
  rcases List.eq_nil_or_concat tables with rfl | ⟨front, ⟨relation, joins⟩, rfl⟩
  · rw [foldl_attachJoins_nil, foldl_attachJoins_nil, hjoins]
    -- the tables that come first may differ, their relations do not
    have hperm' : (joined.filterMap id).Perm (joined'.filterMap id) := hperm.filterMap id
    have hmem : ∀ t, t ∈ joined.filterMap id → some t ∈ joined := fun t ht => by simpa using ht
    generalize joined.filterMap id = left at hperm' hmem ⊢
    generalize joined'.filterMap id = right at hperm' ⊢
    cases left with
    | nil => rw [List.nil_perm.mp hperm']
    | cons t left =>
        cases right with
        | nil => exact absurd hperm'.eq_nil (List.cons_ne_nil t left)
        | cons t' right =>
            have ht := hmem t List.mem_cons_self
            have ht' := hmem t' (hperm'.mem_iff.mpr List.mem_cons_self)
            simp [hrelation rfl t t' ht ht']
  · rw [List.concat_eq_append, foldl_attachJoins_append, foldl_attachJoins_append, hjoins]

end Tables

/-! ### Clauses -/

section Clauses

variable (D : Display)

def operandOf : Token Expr → Option Expr
  | .operand e => some e
  | _ => none

/-- The operands of a condition from left to right. -/
def operands (e : Expr) : List Expr := e.skeleton.print.filterMap operandOf

def questionMarks (ts : List Tok) : ℕ := (marks ts).countP (·.text = "?")

/-- The operand around each positional `?` of a condition, from left to right. -/
def askedBy (e : Expr) : List Expr :=
  (operands e).flatMap fun operand => List.replicate (questionMarks (D.expr operand)) operand

def boundBy (clause : Option Expr) : List Expr := clause.toList.flatMap (askedBy D)

theorem operands_andAll (e : Expr) (es : List Expr) :
    (e.skeleton.andAll (es.map Expr.skeleton)).print.filterMap operandOf =
      (e :: es).flatMap operands := by
  induction es using List.reverseRecOn with
  | nil => simp [andAll, operands]
  | append_singleton es e' ih =>
      rw [List.map_append, List.map_singleton, andAll, List.foldl_append]
      simp only [List.foldl_cons, List.foldl_nil, print, List.filterMap_append,
        List.filterMap_cons]
      rw [← List.cons_append, List.flatMap_append, ← ih]
      simp [operandOf, operands, andAll]

/-- The arguments of a clause with conditions added go to the conditions in
their order. -/
theorem boundBy_addConditions {existing clause : Option Expr} {conditions : List Expr}
    (h : addConditions existing conditions = .ok clause) :
    boundBy D clause = (existing.toList ++ conditions).flatMap (askedBy D) := by
  rcases addConditions_eq_ok h with ⟨hnil, rfl⟩ | ⟨e, es, joined, hcons, rfl, hprint⟩
  · rw [hnil]
    rfl
  · rw [hcons, boundBy, Option.toList_some, List.flatMap_singleton, askedBy, operands, hprint,
      operands_andAll, List.flatMap_assoc]
    rfl

/-- The run that the existing clause leaves open. -/
def runOf (value : Expr → Truth) (existing : Option Expr) : Run :=
  runThrough .holding (existing.toList.map fun e => effect value e.skeleton)

theorem passesClause_addConditions {existing clause : Option Expr} {conditions : List Expr}
    (h : addConditions existing conditions = .ok clause)
    (hcanonical : ∀ e ∈ existing.toList ++ conditions, e.skeleton.Canonical)
    (value : Expr → Truth) :
    PassesClause value clause ↔
      (runThrough (runOf value existing)
        (conditions.map fun e => effect value e.skeleton)).Passes := by
  rw [runOf, ← runThrough_append, ← List.map_append]
  rcases addConditions_eq_ok h with ⟨hnil, rfl⟩ | ⟨e, es, joined, hcons, rfl, hprint⟩
  · simp [hnil, PassesClause]
  · rw [hcons] at hcanonical ⊢
    have hjoined : PassesClause value (some joined) ↔ PassesText value joined := by
      simp [PassesClause]
    rw [hjoined, passesText_andAll_iff hcanonical hprint, someRunHolds_weave_iff, List.map_map]
    rfl

end Clauses

/-! ### The same query -/

section SameQuery

variable (D : Display) (rows : Set (Expr → Truth))

/-- The clauses let the same rows pass and give every argument to the same
operand. `rows` are the rows (groups) there can be, each with the values of the
operands. -/
structure SameClause (clause clause' : Option Expr) : Prop where
  predicate : ∀ value ∈ rows, (PassesClause value clause ↔ PassesClause value clause')
  bound : boundBy D clause = boundBy D clause'

structure SameSelect (select select' : Select) : Prop where
  projection : select.projection = select'.projection
  «from» : select.from = select'.from
  selection : SameClause D rows select.selection select'.selection
  having : SameClause D rows select.having select'.having

def SameQuery (q q' : Query) : Prop :=
  q.orderBy = q'.orderBy ∧
    ∃ select select', q.body = .select select ∧ q'.body = .select select' ∧
      SameSelect D rows select select'

/-- The order of the scopes does not matter to a clause: any two of them ask
for the same arguments in either order, and no row depends on the order. -/
structure ClauseFree (conditionOf : ScopeDefinition → Except SynError Expr)
    (scopes : List ScopeDefinition) (existing : Option Expr) : Prop where
  bound : Commuting scopes fun scope => (added conditionOf scope).flatMap (askedBy D)
  row : ∀ value ∈ rows, Indifferent (runOf value existing)
    (scopes.flatMap fun scope => (added conditionOf scope).map fun e => effect value e.skeleton)

variable {D rows} {m : ScopeManager}

theorem length_added {β : Type} (part : ScopeDefinition → Except SynError β)
    (scope : ScopeDefinition) : (added part scope).length ≤ 1 := by
  rw [added]
  cases (part scope).toOption <;> simp

theorem mem_added {β : Type} {part : ScopeDefinition → Except SynError β}
    {scope : ScopeDefinition} {b : β} : b ∈ added part scope ↔ part scope = .ok b := by
  rw [added]
  cases part scope <;> simp [Except.toOption, eq_comm]

/-- A clause is the same in every order of the map exactly when the order does
not matter to it. -/
theorem sameClause_iterations_iff {conditionOf : ScopeDefinition → Except SynError Expr}
    {existing : Option Expr} {target : ScopeTarget}
    (hexisting : ∀ e ∈ existing, e.skeleton.Canonical)
    (hcondition : ∀ scope e, conditionOf scope = .ok e → e.skeleton.Canonical) :
    (∀ it it' : m.Iteration, ∀ clause clause',
      addConditions existing ((ScopeManager.getScopesByTarget it target).flatMap
        (added conditionOf)) = .ok clause →
      addConditions existing ((ScopeManager.getScopesByTarget it' target).flatMap
        (added conditionOf)) = .ok clause' →
      SameClause D rows clause clause') ↔
    ClauseFree D rows conditionOf (activeFor m target) existing := by
  have hcanonical : ∀ scopes : List ScopeDefinition,
      ∀ e ∈ existing.toList ++ scopes.flatMap (added conditionOf), e.skeleton.Canonical := by
    intro scopes e he
    rcases List.mem_append.mp he with he | he
    · exact hexisting e (by simpa using he)
    · obtain ⟨scope, -, he⟩ := List.mem_flatMap.mp he
      exact hcondition scope e (mem_added.mp he)
  have hpasses : ∀ (scopes : List ScopeDefinition) {clause},
      addConditions existing (scopes.flatMap (added conditionOf)) = .ok clause → ∀ value,
      (PassesClause value clause ↔ (runThrough (runOf value existing) (scopes.flatMap fun scope =>
        (added conditionOf scope).map fun e => effect value e.skeleton)).Passes) := by
    intro scopes clause h value
    rw [passesClause_addConditions h (hcanonical scopes), List.map_flatMap]
  have hbound : ∀ (scopes : List ScopeDefinition) {clause},
      addConditions existing (scopes.flatMap (added conditionOf)) = .ok clause →
      boundBy D clause = existing.toList.flatMap (askedBy D) ++
        scopes.flatMap fun scope => (added conditionOf scope).flatMap (askedBy D) := by
    intro scopes clause h
    rw [boundBy_addConditions D h, List.flatMap_append, List.flatMap_assoc]
  constructor
  · intro h
    -- the base clause is the same in front of both orders and cancels
    refine ⟨(flatMap_iterations_iff _ target).mp fun it it' => ?_, fun value hvalue => ?_⟩
    · obtain ⟨clause, hclause⟩ := exists_addConditions existing _
      obtain ⟨clause', hclause'⟩ := exists_addConditions existing _
      have heq := (h it it' clause clause' hclause hclause').bound
      rw [hbound _ hclause, hbound _ hclause'] at heq
      exact List.append_cancel_left heq
    · refine (passes_flatMap_perm_iff (fun scope => ?_) _ _).mp fun scopes hperm => ?_
      · rw [List.length_map]
        exact length_added conditionOf scope
      · obtain ⟨it, rfl, -⟩ := exists_iteration hperm
        obtain ⟨clause, hclause⟩ := exists_addConditions existing _
        obtain ⟨clause', hclause'⟩ := exists_addConditions existing _
        rw [← hpasses _ hclause, ← hpasses (activeFor m target) hclause']
        exact (h it (keptOrder m) clause clause' hclause hclause').predicate value hvalue
  · intro h it it' clause clause' hclause hclause'
    refine ⟨fun value hvalue => ?_, ?_⟩
    · have hall := (passes_flatMap_perm_iff (fun scope => by
        rw [List.length_map]
        exact length_added conditionOf scope) _ _).mpr (h.row value hvalue)
      rw [hpasses _ hclause, hpasses _ hclause', hall _ (perm_activeFor it target),
        hall _ (perm_activeFor it' target)]
    · rw [hbound _ hclause, hbound _ hclause', (flatMap_iterations_iff _ target).mpr h.bound it it']

end SameQuery

/-! ### Two orders of the map -/

section TwoOrders

variable (parser : Parser) (D : Display) (rows : Set (Expr → Truth)) {m : ScopeManager}

/-- The query behind the text that `applyScopesToSql` returns. -/
def scopedQuery (it : m.Iteration) (sql : List Char) : Except SynError Query := do
  let query ← parseQuery parser sql "Only SELECT queries support scope application"
  match query.body with
  | .select select => applyScopesToQuery parser it query select
  | _ => .error (synError "Only SELECT queries support scope application")

theorem applyScopesToSql_eq (it : m.Iteration) (sql : List Char) :
    applyScopesToSql parser D m it sql =
      if m.getActiveScopes = [] then .ok sql
      else (scopedQuery parser it sql).map fun q => render (D.query q) := by
  rw [applyScopesToSql, scopedQuery, ScopeManager.hasActiveScopes]
  cases m.getActiveScopes with
  | nil => rfl
  | cons scope scopes =>
      simp only [List.isEmpty_cons, Bool.not_false, Bool.not_true, Bool.false_eq_true, if_false,
        reduceCtorEq]
      cases parseQuery parser sql "Only SELECT queries support scope application" with
      | error err => rfl
      | ok query =>
          simp only [bind, Except.bind]
          cases query.body <;> rfl

/-- Two orders of the scope map give the same answer: an error both times, the
text as it was where there is nothing to apply, or texts of the same query. -/
inductive SameAnswer (it it' : m.Iteration) (sql : List Char) : Prop
  | failed {err err' : SynError} (left : applyScopesToSql parser D m it sql = .error err)
      (right : applyScopesToSql parser D m it' sql = .error err')
  | untouched (none : m.getActiveScopes = []) (left : applyScopesToSql parser D m it sql = .ok sql)
      (right : applyScopesToSql parser D m it' sql = .ok sql)
  | applied {q q' : Query} (left : applyScopesToSql parser D m it sql = .ok (render (D.query q)))
      (right : applyScopesToSql parser D m it' sql = .ok (render (D.query q')))
      (query : scopedQuery parser it sql = .ok q) (query' : scopedQuery parser it' sql = .ok q')
      (same : SameQuery D rows q q')

/-- What has to hold of the active scopes of a SELECT. -/
structure OrderFree (m : ScopeManager) (select : Select) : Prop where
  projection : Commuting (activeFor m .select) (added (parseScopeAsSelectItem parser))
  «from» : Commuting (activeFor m .from) fun scope => (added (fromTables parser) scope).flatten
  join : Commuting (activeFor m .join) fun scope => (added (joinTable parser) scope).flatMap joinsOf
  relation : select.from = [] →
    (∀ scope ∈ activeFor m .from, (added (fromTables parser) scope).flatten = []) →
    ∀ a ∈ activeFor m .join, ∀ b ∈ activeFor m .join, ∀ table table',
      joinTable parser a = .ok (some table) → joinTable parser b = .ok (some table') →
        table.relation = table'.relation
  orderBy : Commuting (activeFor m .orderBy) fun scope =>
    (added (orderByExpressionsOf parser) scope).flatten
  selection : ClauseFree D rows (whereCondition parser) (activeFor m .where) select.selection
  having : ClauseFree D rows (havingCondition parser) (activeFor m .having) select.having

variable {parser D rows}

/-- The tables are the same in every order of the map exactly when the tables
of FROM scopes and the joins of JOIN scopes commute, and joins without a table
to go to come with the same table. -/
theorem tables_iterations_iff (tables : List TableWithJoins) :
    (∀ it it' : m.Iteration,
      tablesWith parser tables (ScopeManager.getScopesByTarget it .from)
          (ScopeManager.getScopesByTarget it .join) =
        tablesWith parser tables (ScopeManager.getScopesByTarget it' .from)
          (ScopeManager.getScopesByTarget it' .join)) ↔
    (Commuting (activeFor m .from) fun scope => (added (fromTables parser) scope).flatten) ∧
    (Commuting (activeFor m .join) fun scope =>
      (added (joinTable parser) scope).flatMap joinsOf) ∧
    (tables = [] → (∀ scope ∈ activeFor m .from, (added (fromTables parser) scope).flatten = []) →
      ∀ a ∈ activeFor m .join, ∀ b ∈ activeFor m .join, ∀ table table',
        joinTable parser a = .ok (some table) → joinTable parser b = .ok (some table') →
          table.relation = table'.relation) := by
  constructor
  · intro h
    -- the scopes of one target are moved, the others stay
    have hfrom : ∀ scopes, scopes.Perm (activeFor m .from) →
        tablesWith parser tables scopes (activeFor m .join) =
          tablesWith parser tables (activeFor m .from) (activeFor m .join) := by
      intro scopes hperm
      obtain ⟨it, rfl, hothers⟩ := exists_iteration hperm
      have heq := h it (keptOrder m)
      rwa [hothers .join (by decide)] at heq
    have hjoin : ∀ scopes, scopes.Perm (activeFor m .join) →
        tablesWith parser tables (activeFor m .from) scopes =
          tablesWith parser tables (activeFor m .from) (activeFor m .join) := by
      intro scopes hperm
      obtain ⟨it, rfl, hothers⟩ := exists_iteration hperm
      have heq := h it (keptOrder m)
      rwa [hothers .from (by decide)] at heq
    refine ⟨(flatMap_perm_iff _ _).mp fun scopes hperm => ?_,
      (flatMap_perm_iff _ _).mp fun scopes hperm => ?_, ?_⟩
    · refine List.append_cancel_left (tables_eq_of_foldl ?_ (hfrom scopes hperm))
      rw [List.append_eq_nil_iff, List.append_eq_nil_iff, flatMap_eq_nil_iff_of_perm hperm]
    · have heq := joins_eq_of_foldl (hperm.flatMap_right _) (hjoin scopes hperm)
      rwa [List.flatMap_assoc, List.flatMap_assoc] at heq
    · rintro rfl hnone a ha b hb table table' htable htable'
      by_cases hab : a = b
      · subst hab
        rw [htable] at htable'
        cases htable'
        rfl
      obtain ⟨rest, hperm⟩ := exists_perm_cons_cons ha hb hab
      have heq := (hjoin _ hperm).trans
        (hjoin _ ((List.Perm.swap a b rest).trans hperm)).symm
      rw [tablesWith, tablesWith, List.flatMap_eq_nil_iff.mpr hnone] at heq
      simp only [List.flatMap_cons, added_of_ok htable, added_of_ok htable'] at heq
      exact relation_eq_of_foldl heq
  · rintro ⟨htables, hjoins, hrelation⟩ it it'
    have hjoined := (flatMap_iterations_iff _ _).mpr hjoins it it'
    simp only [← List.flatMap_assoc] at hjoined
    have hperm := (perm_activeFor it .join).trans (perm_activeFor it' .join).symm
    rw [tablesWith, tablesWith, (flatMap_iterations_iff _ _).mpr htables it it']
    refine foldl_attachJoins_perm (hperm.flatMap_right _) hjoined fun hnil t t' ht ht' => ?_
    obtain ⟨rfl, hnone⟩ := List.append_eq_nil_iff.mp hnil
    rw [flatMap_eq_nil_iff_of_perm (perm_activeFor it' .from), List.flatMap_eq_nil_iff] at hnone
    obtain ⟨a, ha, hta⟩ := List.mem_flatMap.mp ht
    obtain ⟨b, hb, htb⟩ := List.mem_flatMap.mp ht'
    exact hrelation rfl hnone a ((perm_activeFor it .join).mem_iff.mp ha) b
      ((perm_activeFor it .join).mem_iff.mp hb) t t' (mem_added.mp hta) (mem_added.mp htb)

theorem addOrderBy_inj {existing : Option OrderBy} {exprs exprs' : List OrderByExpr}
    (hnil : exprs = [] ↔ exprs' = []) :
    addOrderBy existing exprs = addOrderBy existing exprs' ↔ exprs = exprs' := by
  refine ⟨fun h => ?_, fun h => by rw [h]⟩
  cases exprs with
  | nil => exact (hnil.mp rfl).symm
  | cons e exprs =>
      cases exprs' with
      | nil => exact hnil.mpr rfl
      | cons e' exprs' =>
          rcases existing with _ | ⟨_ | _, _⟩ <;> simpa [addOrderBy] using h

variable (parser D rows) in
/-- What the scopes of each target add in two orders of the map. -/
structure SameParts (it it' : m.Iteration) (select : Select) : Prop where
  projection :
    (ScopeManager.getScopesByTarget it .select).flatMap (added (parseScopeAsSelectItem parser)) =
      (ScopeManager.getScopesByTarget it' .select).flatMap (added (parseScopeAsSelectItem parser))
  tables :
    tablesWith parser select.from (ScopeManager.getScopesByTarget it .from)
        (ScopeManager.getScopesByTarget it .join) =
      tablesWith parser select.from (ScopeManager.getScopesByTarget it' .from)
        (ScopeManager.getScopesByTarget it' .join)
  orderBy :
    (ScopeManager.getScopesByTarget it .orderBy).flatMap
        (fun scope => (added (orderByExpressionsOf parser) scope).flatten) =
      (ScopeManager.getScopesByTarget it' .orderBy).flatMap
        (fun scope => (added (orderByExpressionsOf parser) scope).flatten)
  selection : ∀ clause clause',
    addConditions select.selection ((ScopeManager.getScopesByTarget it .where).flatMap
      (added (whereCondition parser))) = .ok clause →
    addConditions select.selection ((ScopeManager.getScopesByTarget it' .where).flatMap
      (added (whereCondition parser))) = .ok clause' → SameClause D rows clause clause'
  having : ∀ clause clause',
    addConditions select.having ((ScopeManager.getScopesByTarget it .having).flatMap
      (added (havingCondition parser))) = .ok clause →
    addConditions select.having ((ScopeManager.getScopesByTarget it' .having).flatMap
      (added (havingCondition parser))) = .ok clause' → SameClause D rows clause clause'

/-- The queries of two orders, compared part by part. -/
theorem sameQuery_iff {it it' : m.Iteration} {q q₁ q₂ : Query} {select : Select}
    (h₁ : applyScopesToQuery parser it q select = .ok q₁)
    (h₂ : applyScopesToQuery parser it' q select = .ok q₂) :
    SameQuery D rows q₁ q₂ ↔ SameParts parser D rows it it' select := by
  obtain ⟨-, select₁, hbody₁, hprojection₁, hfrom₁, hselection₁, hhaving₁, horder₁⟩ :=
    applyScopesToQuery_parts h₁
  obtain ⟨-, select₂, hbody₂, hprojection₂, hfrom₂, hselection₂, hhaving₂, horder₂⟩ :=
    applyScopesToQuery_parts h₂
  have hperm := (perm_activeFor it .orderBy).trans (perm_activeFor it' .orderBy).symm
  have hflatten : ∀ scopes : List ScopeDefinition,
      (scopes.flatMap (added (orderByExpressionsOf parser))).flatten =
        scopes.flatMap fun scope => (added (orderByExpressionsOf parser) scope).flatten := by
    intro scopes
    simp only [List.flatten_eq_flatMap, List.flatMap_assoc]
  rw [hflatten] at horder₁ horder₂
  rw [SameQuery, horder₁, horder₂, addOrderBy_inj (flatMap_eq_nil_iff_of_perm hperm _), hbody₁, hbody₂]
  constructor
  · rintro ⟨horder, select, select', hselect, hselect', hprojection, hfrom, hselection, hhaving⟩
    cases hselect
    cases hselect'
    rw [hprojection₁, hprojection₂] at hprojection
    rw [hfrom₁, hfrom₂] at hfrom
    refine ⟨List.append_cancel_left hprojection, hfrom, horder, ?_, ?_⟩
    · intro clause clause' hclause hclause'
      obtain rfl := Except.ok.inj (hselection₁.symm.trans hclause)
      obtain rfl := Except.ok.inj (hselection₂.symm.trans hclause')
      exact hselection
    · intro clause clause' hclause hclause'
      obtain rfl := Except.ok.inj (hhaving₁.symm.trans hclause)
      obtain rfl := Except.ok.inj (hhaving₂.symm.trans hclause')
      exact hhaving
  · rintro ⟨hprojection, hfrom, horder, hselection, hhaving⟩
    refine ⟨horder, select₁, select₂, rfl, rfl, ?_, ?_, hselection _ _ hselection₁ hselection₂,
      hhaving _ _ hhaving₁ hhaving₂⟩
    · rw [hprojection₁, hprojection₂, hprojection]
    · rw [hfrom₁, hfrom₂, hfrom]

/-- Over all orders, part by part. -/
theorem sameQuery_iterations_iff {q : Query} {select : Select}
    (hselection : ∀ e ∈ select.selection, e.skeleton.Canonical)
    (hhaving : ∀ e ∈ select.having, e.skeleton.Canonical) (hparser : CanonicalParser parser)
    (hparses : ∀ scope ∈ m.getActiveScopes, Parses parser scope) :
    (∀ it it' : m.Iteration, ∀ q₁ q₂, applyScopesToQuery parser it q select = .ok q₁ →
      applyScopesToQuery parser it' q select = .ok q₂ → SameQuery D rows q₁ q₂) ↔
    OrderFree parser D rows m select := by
  have hwhereCanonical : ∀ scope e, whereCondition parser scope = .ok e → e.skeleton.Canonical :=
    fun scope e he => parseCondition_canonical
      (fun sql q select hsql hq => (hparser sql q select hsql hq).1) he
  have hhavingCanonical : ∀ scope e, havingCondition parser scope = .ok e →
      e.skeleton.Canonical :=
    fun scope e he => parseCondition_canonical
      (fun sql q select hsql hq => (hparser sql q select hsql hq).2) he
  constructor
  · intro h
    have hparts : ∀ it it' : m.Iteration, SameParts parser D rows it it' select := by
      intro it it'
      obtain ⟨q₁, h₁⟩ := exists_applyScopesToQuery it q select hparses
      obtain ⟨q₂, h₂⟩ := exists_applyScopesToQuery it' q select hparses
      exact (sameQuery_iff h₁ h₂).mp (h it it' q₁ q₂ h₁ h₂)
    obtain ⟨hfrom, hjoin, hrelation⟩ :=
      (tables_iterations_iff select.from).mp fun it it' => (hparts it it').tables
    exact ⟨(flatMap_iterations_iff _ _).mp fun it it' => (hparts it it').projection,
      hfrom, hjoin, hrelation,
      (flatMap_iterations_iff _ _).mp fun it it' => (hparts it it').orderBy,
      (sameClause_iterations_iff hselection hwhereCanonical).mp fun it it' =>
        (hparts it it').selection,
      (sameClause_iterations_iff hhaving hhavingCanonical).mp fun it it' =>
        (hparts it it').having⟩
  · intro h it it' q₁ q₂ h₁ h₂
    refine (sameQuery_iff h₁ h₂).mpr ⟨?_, ?_, ?_, ?_, ?_⟩
    · exact (flatMap_iterations_iff _ _).mpr h.projection it it'
    · exact (tables_iterations_iff select.from).mpr ⟨h.from, h.join, h.relation⟩ it it'
    · exact (flatMap_iterations_iff _ _).mpr h.orderBy it it'
    · exact (sameClause_iterations_iff hselection hwhereCanonical).mpr h.selection it it'
    · exact (sameClause_iterations_iff hhaving hhavingCanonical).mpr h.having it it'

theorem scopedQuery_eq_ok_iff {it : m.Iteration} {sql : List Char} {q' : Query} :
    scopedQuery parser it sql = .ok q' ↔ ∃ q select, parseSql parser sql = .ok (some (.query q)) ∧
      q.body = .select select ∧ applyScopesToQuery parser it q select = .ok q' := by
  constructor
  · intro h
    obtain ⟨q, hquery, h⟩ := exists_of_bind_eq_ok h
    cases hbody : q.body with
    | select select => exact ⟨q, select, parseQuery_eq_ok hquery, hbody, by simpa [hbody] using h⟩
    | _ => simp [hbody] at h
  · rintro ⟨q, select, hparse, hbody, h⟩
    rw [scopedQuery, parseQuery, hparse]
    simpa [bind, Except.bind, Except.mapError, hbody] using h

theorem eq_of_none (h : m.getActiveScopes = []) (it it' : m.Iteration) : it = it' := by
  have hnil : ∀ it : m.Iteration, it.order = [] := fun it => by
    have hperm := it.perm
    rw [h] at hperm
    exact hperm.eq_nil
  obtain ⟨order, hperm⟩ := it
  obtain ⟨order', hperm'⟩ := it'
  obtain rfl : order = [] := hnil ⟨order, hperm⟩
  obtain rfl : order' = [] := hnil ⟨order', hperm'⟩
  rfl

/-- Order dependence of scopes, exactly: all orders of the scope map give the
same answer when and only when the parts of the scopes commute and no row
depends on the order of the conditions, or something does not parse and all
orders give an error. MySQL's XOR and `||` are operands of conditions here. -/
theorem scopes_order_free_iff (hparser : CanonicalParser parser) (sql : List Char) :
    (∀ it it' : m.Iteration, SameAnswer parser D rows it it' sql) ↔
      ∀ q select, parseSql parser sql = .ok (some (.query q)) → q.body = .select select →
        (∀ scope ∈ m.getActiveScopes, Parses parser scope) → OrderFree parser D rows m select := by
  constructor
  · intro h q select hparse hbody hparses
    obtain ⟨hselection, hhaving⟩ := hparser sql q select hparse hbody
    refine (@sameQuery_iterations_iff _ _ _ _ q _ hselection hhaving hparser hparses).mp ?_
    intro it it' q₁ q₂ h₁ h₂
    have hquery : scopedQuery parser it sql = .ok q₁ :=
      scopedQuery_eq_ok_iff.mpr ⟨q, select, hparse, hbody, h₁⟩
    have hquery' : scopedQuery parser it' sql = .ok q₂ :=
      scopedQuery_eq_ok_iff.mpr ⟨q, select, hparse, hbody, h₂⟩
    cases h it it' with
    | failed left right =>
        rw [applyScopesToSql_eq, hquery] at left
        split at left <;> cases left
    | untouched hnone left right =>
        -- there is one order only
        obtain rfl := eq_of_none hnone it it'
        rw [h₁] at h₂
        obtain rfl := Except.ok.inj h₂
        refine (sameQuery_iff h₁ h₁).mpr ⟨rfl, rfl, rfl, ?_, ?_⟩ <;>
        · intro clause clause' hclause hclause'
          obtain rfl := Except.ok.inj (hclause.symm.trans hclause')
          exact ⟨fun value _ => Iff.rfl, rfl⟩
    | applied left right query query' same =>
        rw [hquery] at query
        rw [hquery'] at query'
        cases query
        cases query'
        exact same
  · intro h it it'
    by_cases hnone : m.getActiveScopes = []
    · refine .untouched hnone ?_ ?_ <;> rw [applyScopesToSql_eq, if_pos hnone]
    by_cases hquery : ∃ q', scopedQuery parser it sql = .ok q'
    · obtain ⟨q₁, hquery⟩ := hquery
      obtain ⟨q, select, hparse, hbody, h₁⟩ := scopedQuery_eq_ok_iff.mp hquery
      have hparses := (applyScopesToQuery_parts h₁).1
      obtain ⟨hselection, hhaving⟩ := hparser sql q select hparse hbody
      obtain ⟨q₂, h₂⟩ := exists_applyScopesToQuery it' q select hparses
      have hquery' := scopedQuery_eq_ok_iff.mpr ⟨q, select, hparse, hbody, h₂⟩
      refine .applied ?_ ?_ hquery hquery' ?_
      · rw [applyScopesToSql_eq, if_neg hnone, hquery]
        rfl
      · rw [applyScopesToSql_eq, if_neg hnone, hquery']
        rfl
      · exact (sameQuery_iterations_iff hselection hhaving hparser hparses).mpr
          (h q select hparse hbody hparses) it it' q₁ q₂ h₁ h₂
    · -- an order that fails fails for a text that every order parses
      have hquery' : ¬∃ q', scopedQuery parser it' sql = .ok q' := by
        rintro ⟨q', hq'⟩
        obtain ⟨q, select, hparse, hbody, h₁⟩ := scopedQuery_eq_ok_iff.mp hq'
        obtain ⟨q₂, h₂⟩ := exists_applyScopesToQuery it q select (applyScopesToQuery_parts h₁).1
        exact hquery ⟨q₂, scopedQuery_eq_ok_iff.mpr ⟨q, select, hparse, hbody, h₂⟩⟩
      have hfails : ∀ it : m.Iteration, (¬∃ q', scopedQuery parser it sql = .ok q') →
          ∃ err, applyScopesToSql parser D m it sql = .error err := by
        intro it hno
        rw [applyScopesToSql_eq, if_neg hnone]
        cases hscoped : scopedQuery parser it sql with
        | error err => exact ⟨err, rfl⟩
        | ok q' => exact absurd ⟨q', hscoped⟩ hno
      obtain ⟨err, left⟩ := hfails it hquery
      obtain ⟨err', right⟩ := hfails it' hquery'
      exact .failed left right

/-! #### Conditions that are enough -/

theorem commuting_of_length_le_one {β : Type} {scopes : List ScopeDefinition}
    (h : scopes.length ≤ 1) (part : ScopeDefinition → List β) : Commuting scopes part := by
  intro a ha b hb
  match scopes, h with
  | [], _ => simp at ha
  | [scope], _ => rw [List.mem_singleton.mp ha, List.mem_singleton.mp hb]

/-- Conditions without a top-level OR of which no two ask for arguments can be
added in any order. -/
theorem clauseFree_of_single {conditionOf : ScopeDefinition → Except SynError Expr}
    {scopes : List ScopeDefinition} {existing : Option Expr}
    (hsingle : ∀ scope ∈ scopes, ∀ e, conditionOf scope = .ok e →
      e.skeleton.alternatives = [e.skeleton])
    (hasks : ∀ a ∈ scopes, ∀ b ∈ scopes, a ≠ b →
      (added conditionOf a).flatMap (askedBy D) = [] ∨
        (added conditionOf b).flatMap (askedBy D) = []) :
    ClauseFree D rows conditionOf scopes existing := by
  refine ⟨fun a ha b hb => ?_, fun value _ => indifferent_of_single (fun e he => ?_) _⟩
  · by_cases hab : a = b
    · rw [hab]
    · rcases hasks a ha b hb hab with hnone | hnone <;> simp [hnone]
  · obtain ⟨scope, hscope, he⟩ := List.mem_flatMap.mp he
    obtain ⟨condition, hcondition, rfl⟩ := List.mem_map.mp he
    exact effect_of_single (hsingle scope hscope condition (mem_added.mp hcondition))

end TwoOrders

/-! ### Examples -/

namespace OrderExample

open Reference

/-- `SELECT 1 ORDER BY age DESC`, the text a scope is parsed in. -/
def orderText (column : String) (asc : Bool) : Query :=
  { simpleQuery (.select { simpleSelect [.unnamedExpr (.value (.number "1" false))] "users" none
      with «from» := [] }) with
    orderBy := some ⟨.expressions [⟨.identifier (.new column), ⟨some asc, none⟩, none⟩], none⟩ }

/-- `SELECT 1 WHERE age > 18` -/
def conditionText (condition : Expr) : Query :=
  simpleQuery (.select { simpleSelect [.unnamedExpr (.value (.number "1" false))] "users"
    (some condition) with «from» := [] })

def asks (column : String) : Expr :=
  .binaryOp (.identifier (.new column)) .eq (.value (.placeholder "?" (.argument 0)))

def userList : Query := simpleQuery (.select (simpleSelect [.wildcard] "users" none))

def parser : Parser :=
  parserOfAll [userList, conditionText (asks "tenant_id"), conditionText (asks "owner_id"),
    conditionText (ScopeExample.comparison "age" .gt "18"), orderText "age" false,
    orderText "name" true]

def scopes : ScopeManager :=
  (((ScopeManager.new.addScope "tenant" "tenant_id = ?" .where).addScope "owner" "owner_id = ?"
    .where).addScope "by_age" "age DESC" .orderBy).addScope "by_name" "name ASC" .orderBy

/-- One condition that asks for an argument, one that does not, one sort key. -/
def calmScopes : ScopeManager :=
  ((ScopeManager.new.addScope "tenant" "tenant_id = ?" .where).addScope "adults" "age > 18"
    .where).addScope "by_age" "age DESC" .orderBy

def backwards (m : ScopeManager) : m.Iteration :=
  ⟨m.getActiveScopes.reverse, List.reverse_perm _⟩

theorem canonicalParser : CanonicalParser parser := by
  intro sql q select hsql hbody
  have hq := mem_of_parserOfAll hsql
  simp only [List.mem_cons, List.not_mem_nil, or_false] at hq
  rcases hq with rfl | rfl | rfl | rfl | rfl | rfl <;> cases hbody <;>
    simp [simpleSelect, asks, ScopeExample.comparison, Expr.skeleton, Canonical, FitsAt]

end OrderExample

open OrderExample Reference

/-- Two orders of one scope map: the arguments change places, and so do the
sort keys. -/
theorem order_by_map :
    applyScopesToSql OrderExample.parser Display.reference scopes (keptOrder scopes)
        (text userList) =
      .ok ("SELECT * FROM users WHERE tenant_id = ? AND owner_id = ? " ++
        "ORDER BY age DESC, name ASC").toList ∧
    applyScopesToSql OrderExample.parser Display.reference scopes (backwards scopes)
        (text userList) =
      .ok ("SELECT * FROM users WHERE owner_id = ? AND tenant_id = ? " ++
        "ORDER BY name ASC, age DESC").toList ∧
    ¬∀ it it' : scopes.Iteration,
      SameAnswer OrderExample.parser Display.reference Set.univ it it' (text userList) := by
  refine ⟨by decide, by decide, fun h => ?_⟩
  cases h (keptOrder scopes) (backwards scopes) with
  | failed left right => cases left
  | untouched hnone left right => cases hnone
  | applied left right query query' same =>
      obtain rfl := Except.ok.inj query
      obtain rfl := Except.ok.inj query'
      exact absurd (congrArg (fun order => render (Reference.orderBy order)) same.1) (by decide)


/-- The order does not matter to scopes of which one asks for an argument and
one sorts. -/
theorem calm_scopes_free :
    (∀ it it' : calmScopes.Iteration,
      SameAnswer OrderExample.parser Display.reference Set.univ it it' (text userList)) ∧
    applyScopesToSql OrderExample.parser Display.reference calmScopes (backwards calmScopes)
        (text userList) =
      .ok "SELECT * FROM users WHERE age > 18 AND tenant_id = ? ORDER BY age DESC".toList := by
  refine ⟨(scopes_order_free_iff canonicalParser _).mpr fun q select _ _ _ => ?_, by decide⟩
  have hwhere : activeFor calmScopes .where =
      [⟨"tenant", "tenant_id = ?", .where⟩, ⟨"adults", "age > 18", .where⟩] := by decide
  have hjoin : activeFor calmScopes .join = [] := by decide
  have hhaving : activeFor calmScopes .having = [] := by decide
  have htenant : whereCondition OrderExample.parser ⟨"tenant", "tenant_id = ?", .where⟩ =
      .ok (asks "tenant_id") := rfl
  have hadults : whereCondition OrderExample.parser ⟨"adults", "age > 18", .where⟩ =
      .ok (ScopeExample.comparison "age" .gt "18") := rfl
  refine ⟨commuting_of_length_le_one (by decide) _, commuting_of_length_le_one (by decide) _,
    commuting_of_length_le_one (by decide) _, fun _ _ a ha => ?_,
    commuting_of_length_le_one (by decide) _, clauseFree_of_single ?_ ?_,
    clauseFree_of_single ?_ ?_⟩
  · rw [hjoin] at ha
    cases ha
  · intro scope hscope e he
    rw [hwhere] at hscope
    rcases List.mem_pair.mp hscope with rfl | rfl
    · rw [htenant] at he
      cases he
      rfl
    · rw [hadults] at he
      cases he
      rfl
  · -- only the tenant asks
    intro a ha b hb hab
    have hnone : (added (whereCondition OrderExample.parser)
        ⟨"adults", "age > 18", .where⟩).flatMap (askedBy Display.reference) = [] := by
      rw [added_of_ok hadults]
      rfl
    rw [hwhere] at ha hb
    rcases List.mem_pair.mp ha with rfl | rfl
    · rcases List.mem_pair.mp hb with rfl | rfl
      · exact absurd rfl hab
      · exact Or.inr hnone
    · exact Or.inl hnone
  · rw [hhaving]
    exact fun scope hscope => absurd hscope List.not_mem_nil
  · rw [hhaving]
    exact fun a ha => absurd ha List.not_mem_nil

end SqlxData.Macros
