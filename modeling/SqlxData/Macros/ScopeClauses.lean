import SqlxData.Macros.ScopeOrder

/-!
What scopes add to SELECT, FROM, JOIN, GROUP BY and ORDER BY, in terms of what
the parser reads in their texts. Of the statement around a scope only the
clause of its target is looked at, and there the first item or the first table
alone: what else stands in the text is lost without an error.
-/

namespace SqlxData.Macros

open SqlxData.Sqlparser SqlxData.Core

/-! ### What is read in the text of a scope -/

section Texts

variable (parser : Parser)

/-- The query in the dummy statement of a scope. -/
def readQuery (start : String) (scope : ScopeDefinition) : Option Query :=
  match parseSql parser (dummyText start scope) with
  | .ok (some (.query q)) => some q
  | _ => none

def readSelect (start : String) (scope : ScopeDefinition) : Option Select :=
  match (readQuery parser start scope).map Query.body with
  | some (.select select) => some select
  | _ => none

def itemsOf (scope : ScopeDefinition) : List SelectItem :=
  (readSelect parser "SELECT " scope).elim [] Select.projection

def tablesOf (scope : ScopeDefinition) : List TableWithJoins :=
  (readSelect parser "SELECT * FROM " scope).elim [] Select.from

/-- The dummy table with the joins of the scope. -/
def joinedOf (scope : ScopeDefinition) : List TableWithJoins :=
  (readSelect parser "SELECT * FROM __dummy__ " scope).elim [] Select.from

def groupingOf (scope : ScopeDefinition) : List GroupByExpr :=
  ((readSelect parser "SELECT * GROUP BY " scope).map Select.groupBy).toList

/-- The sort keys of an ORDER BY; ORDER BY ALL has none. -/
def sortKeys : Option OrderBy → List OrderByExpr
  | some ⟨.expressions exprs, _⟩ => exprs
  | _ => []

def sortKeysOf (scope : ScopeDefinition) : List OrderByExpr :=
  (readQuery parser "SELECT 1 ORDER BY " scope).elim [] fun q => sortKeys q.orderBy

/-- The parser reads what the target of the scope needs. -/
def Reads (scope : ScopeDefinition) : Prop :=
  match scope.target with
  | .select => itemsOf parser scope ≠ []
  | .from => (readSelect parser "SELECT * FROM " scope).isSome
  | .join => (readSelect parser "SELECT * FROM __dummy__ " scope).isSome
  | .where => ((readSelect parser "SELECT 1 WHERE " scope).bind Select.selection).isSome
  | .groupBy => (readSelect parser "SELECT * GROUP BY " scope).isSome
  | .having => ((readSelect parser "SELECT 1 HAVING " scope).bind Select.having).isSome
  | .orderBy => (readQuery parser "SELECT 1 ORDER BY " scope).isSome

variable {parser}

theorem parseQuery_dummyText (start notQuery : String) (scope : ScopeDefinition) :
    (parseQuery parser (dummyText start scope) notQuery).toOption =
      readQuery parser start scope := by
  rw [parseQuery, readQuery]
  rcases parseSql parser (dummyText start scope) with err | _ | q | form <;> rfl

theorem parseSelect_dummyText (start notQuery notSelect : String) (scope : ScopeDefinition) :
    (parseSelect parser (dummyText start scope) notQuery notSelect).toOption =
      readSelect parser start scope := by
  rw [parseSelect, readSelect, ← parseQuery_dummyText start notQuery]
  rcases parseQuery parser (dummyText start scope) notQuery with err | q
  · rfl
  · rcases hbody : q.body <;>
      simp [Bind.bind, Except.bind, Except.toOption, hbody]

theorem isOk_iff_toOption {α : Type} (x : Except SynError α) : x.isOk ↔ x.toOption.isSome := by
  cases x <;> simp [Except.isOk, Except.toBool, Except.toOption]

theorem toOption_bind {α β : Type} (x : Except SynError α) (f : α → Except SynError β) :
    (x >>= f).toOption = x.toOption.bind fun a => (f a).toOption := by
  cases x <;> rfl

theorem parseScopeAsSelectItem_toOption (scope : ScopeDefinition) :
    (parseScopeAsSelectItem parser scope).toOption = (itemsOf parser scope).head? := by
  rw [parseScopeAsSelectItem, toOption_bind, parseSelect_dummyText, itemsOf]
  cases readSelect parser "SELECT " scope with
  | none => rfl
  | some select => cases hitems : select.projection <;> simp [hitems, Except.toOption]

theorem fromTables_toOption (scope : ScopeDefinition) :
    (fromTables parser scope).toOption =
      (readSelect parser "SELECT * FROM " scope).map Select.from := by
  rw [fromTables, toOption_bind, parseSelect_dummyText]
  cases readSelect parser "SELECT * FROM " scope <;> rfl

theorem joinTable_toOption (scope : ScopeDefinition) :
    (joinTable parser scope).toOption =
      (readSelect parser "SELECT * FROM __dummy__ " scope).map (·.from.head?) := by
  rw [joinTable, toOption_bind, parseSelect_dummyText]
  cases readSelect parser "SELECT * FROM __dummy__ " scope <;> rfl

theorem scopeGroupBy_toOption (scope : ScopeDefinition) :
    (scopeGroupBy parser scope).toOption =
      (readSelect parser "SELECT * GROUP BY " scope).map Select.groupBy := by
  rw [scopeGroupBy, toOption_bind, parseSelect_dummyText]
  cases readSelect parser "SELECT * GROUP BY " scope <;> rfl

theorem orderByExpressionsOf_toOption (scope : ScopeDefinition) :
    (orderByExpressionsOf parser scope).toOption =
      (readQuery parser "SELECT 1 ORDER BY " scope).map fun q => sortKeys q.orderBy := by
  rw [orderByExpressionsOf, toOption_bind, parseQuery_dummyText]
  rcases readQuery parser "SELECT 1 ORDER BY " scope with _ | q
  · rfl
  · rcases horder : q.orderBy with _ | ⟨_ | _, _⟩ <;> simp [horder, sortKeys, Except.toOption]

theorem parseCondition_toOption (start clause : String) (conditionOf : Select → Option Expr)
    (scope : ScopeDefinition) :
    (parseCondition parser start clause conditionOf scope).toOption =
      (readSelect parser start scope).bind conditionOf := by
  rw [parseCondition, toOption_bind, parseSelect_dummyText]
  cases readSelect parser start scope with
  | none => rfl
  | some select => cases hcondition : conditionOf select <;> simp [hcondition, Except.toOption]

/-- What the functions that parse scopes accept. -/
theorem parses_iff_reads (scope : ScopeDefinition) :
    Parses parser scope ↔ Reads parser scope := by
  unfold Parses ParsesAs Reads
  cases scope.target with
  | select =>
      simp only [isOk_iff_toOption, parseScopeAsSelectItem_toOption]
      simp
  | «from» => simp [isOk_iff_toOption, fromTables_toOption]
  | join => simp [isOk_iff_toOption, joinTable_toOption]
  | «where» => simp only [isOk_iff_toOption, whereCondition, parseCondition_toOption]
  | groupBy => simp [isOk_iff_toOption, scopeGroupBy_toOption]
  | having => simp only [isOk_iff_toOption, havingCondition, parseCondition_toOption]
  | orderBy => simp [isOk_iff_toOption, orderByExpressionsOf_toOption]

/-! ### The parts of the clauses -/

theorem added_items (scope : ScopeDefinition) :
    added (parseScopeAsSelectItem parser) scope = (itemsOf parser scope).head?.toList := by
  rw [added, parseScopeAsSelectItem_toOption]

theorem added_tables (scope : ScopeDefinition) :
    (added (fromTables parser) scope).flatten = tablesOf parser scope := by
  rw [added, fromTables_toOption, tablesOf]
  cases readSelect parser "SELECT * FROM " scope <;> simp

theorem added_joined {scope : ScopeDefinition} {joined : TableWithJoins}
    (h : joinedOf parser scope = [joined]) : added (joinTable parser) scope = [some joined] := by
  rw [joinedOf] at h
  rw [added, joinTable_toOption]
  cases hread : readSelect parser "SELECT * FROM __dummy__ " scope with
  | none => simp [hread] at h
  | some select =>
      rw [hread] at h
      simp only [Option.elim_some] at h
      simp [h]

theorem added_groupings (scope : ScopeDefinition) :
    added (scopeGroupBy parser) scope = groupingOf parser scope := by
  rw [added, scopeGroupBy_toOption, groupingOf]

theorem added_sortKeys (scope : ScopeDefinition) :
    (added (orderByExpressionsOf parser) scope).flatten = sortKeysOf parser scope := by
  rw [added, orderByExpressionsOf_toOption, sortKeysOf]
  cases readQuery parser "SELECT 1 ORDER BY " scope <;> simp

end Texts

/-! ### Texts that are a list and nothing else -/

/-- A SELECT list, and no other clause. -/
def bareSelect (items : List SelectItem) : Select :=
  ⟨none, none, items, [], none, .expressions [] [], none, [], []⟩

def bareQuery (select : Select) : Query := ⟨none, .select select, none, none, none, []⟩

def dummyTable : TableFactor := .table [.new "__dummy__"] none

def dummyItem : SelectItem := .unnamedExpr (.value (.number "1" false))

section Lists

variable (parser : Parser)

def joinsIn (scope : ScopeDefinition) : List Join :=
  (joinedOf parser scope).flatMap TableWithJoins.joins

/-- The parser reads the text of the scope as the list of its clause, and finds
nothing else in it. A WHERE or HAVING scope needs a condition. -/
def IsList (scope : ScopeDefinition) : Prop :=
  match scope.target with
  | .select =>
      itemsOf parser scope ≠ [] ∧
      readQuery parser "SELECT " scope = some (bareQuery (bareSelect (itemsOf parser scope)))
  | .from =>
      readQuery parser "SELECT * FROM " scope =
        some (bareQuery { bareSelect [.wildcard] with «from» := tablesOf parser scope })
  | .join =>
      readQuery parser "SELECT * FROM __dummy__ " scope =
        some (bareQuery { bareSelect [.wildcard] with
          «from» := [⟨dummyTable, joinsIn parser scope⟩] })
  | .where => ((readSelect parser "SELECT 1 WHERE " scope).bind Select.selection).isSome
  | .groupBy =>
      ∃ grouping, grouping ≠ .expressions [] [] ∧
        readQuery parser "SELECT * GROUP BY " scope =
          some (bareQuery { bareSelect [.wildcard] with groupBy := grouping })
  | .having => ((readSelect parser "SELECT 1 HAVING " scope).bind Select.having).isSome
  | .orderBy =>
      sortKeysOf parser scope ≠ [] ∧
      readQuery parser "SELECT 1 ORDER BY " scope =
        some { bareQuery (bareSelect [dummyItem]) with
          orderBy := some ⟨.expressions (sortKeysOf parser scope), none⟩ }

variable {parser}

theorem readSelect_of_readQuery {start : String} {scope : ScopeDefinition} {q : Query}
    {select : Select} (h : readQuery parser start scope = some q) (hbody : q.body = .select select) :
    readSelect parser start scope = some select := by
  rw [readSelect, h, Option.map_some, hbody]

theorem reads_of_isList {scope : ScopeDefinition} (h : IsList parser scope) :
    Reads parser scope := by
  unfold IsList at h
  unfold Reads
  cases htarget : scope.target with
  | select =>
      simp only [htarget] at h
      exact h.1
  | «from» | join =>
      simp only [htarget] at h
      simp only [readSelect_of_readQuery h rfl, Option.isSome_some]
  | «where» | having =>
      simp only [htarget] at h
      exact h
  | groupBy =>
      simp only [htarget] at h
      obtain ⟨grouping, -, h⟩ := h
      simp only [readSelect_of_readQuery h rfl, Option.isSome_some]
  | orderBy =>
      simp only [htarget] at h
      simp only [h.2, Option.isSome_some]

theorem joinedOf_of_isList {scope : ScopeDefinition} (htarget : scope.target = .join)
    (h : IsList parser scope) : joinedOf parser scope = [⟨dummyTable, joinsIn parser scope⟩] := by
  simp only [IsList, htarget] at h
  have hselect := readSelect_of_readQuery h rfl
  rw [joinedOf, hselect]
  rfl

theorem groupingOf_of_isList {scope : ScopeDefinition} (htarget : scope.target = .groupBy)
    (h : IsList parser scope) : ∀ g ∈ groupingOf parser scope, g ≠ .expressions [] [] := by
  simp only [IsList, htarget] at h
  obtain ⟨grouping, hne, h⟩ := h
  have hselect := readSelect_of_readQuery h rfl
  rw [groupingOf, hselect]
  rintro g hg
  obtain rfl := List.mem_singleton.mp hg
  exact hne

theorem sortKeysOf_of_isList {scope : ScopeDefinition} (htarget : scope.target = .orderBy)
    (h : IsList parser scope) : sortKeysOf parser scope ≠ [] := by
  simp only [IsList, htarget] at h
  exact h.1

end Lists

/-! ### SELECT lists -/

theorem length_flatMap_head_le {α β : Type} (xs : List α) (f : α → List β) :
    (xs.flatMap fun x => (f x).head?.toList).length ≤ (xs.flatMap f).length := by
  induction xs with
  | nil => exact le_rfl
  | cons x xs ih =>
      have hhead : (f x).head?.toList.length ≤ (f x).length := by cases f x <;> simp
      simp only [List.flatMap_cons, List.length_append]
      omega

/-- The first elements are all of them if no list has a second one. -/
theorem flatMap_head_eq_iff {α β : Type} {xs : List α} {f : α → List β} :
    (xs.flatMap fun x => (f x).head?.toList) = xs.flatMap f ↔ ∀ x ∈ xs, (f x).length ≤ 1 := by
  induction xs with
  | nil => simp
  | cons x xs ih =>
      have hle := length_flatMap_head_le xs f
      rw [List.forall_mem_cons, ← ih, List.flatMap_cons, List.flatMap_cons]
      rcases hfx : f x with _ | ⟨first, _ | ⟨second, others⟩⟩
      · simp
      · simp
      · refine iff_of_false (fun h => ?_) (by simp)
        have hlength := congrArg List.length h
        simp only [List.head?_cons, Option.toList_some, List.length_append, List.length_cons,
          List.length_nil] at hlength
        omega

/-! ### FROM and its joins -/

/-- The joins stand behind those of the last table. -/
def AppendsJoins (tables : List TableWithJoins) (joins : List Join)
    (tables' : List TableWithJoins) : Prop :=
  (joins = [] ∧ tables' = tables) ∨
    ∃ front last, tables = front ++ [last] ∧
      tables' = front ++ [⟨last.relation, last.joins ++ joins⟩]

theorem flatMap_joinsOf (joined : List TableWithJoins) :
    (joined.map some).flatMap joinsOf = joined.flatMap TableWithJoins.joins := by
  rw [List.flatMap_map]
  rfl

/-- The joins go to the last table of the statement; without one, the dummy
table comes along. -/
theorem appendsJoins_foldl_iff (tables joined : List TableWithJoins) :
    AppendsJoins tables (joined.flatMap TableWithJoins.joins)
        ((joined.map some).foldl attachJoins tables) ↔
      joined = [] ∨ tables ≠ [] := by
  rcases List.eq_nil_or_concat tables with rfl | ⟨front, ⟨relation, joins⟩, rfl⟩
  · cases joined with
    | nil => simp [AppendsJoins]
    | cons table joined =>
        have htables : ((table :: joined).map some).foldl attachJoins [] ≠ [] := by
          rw [foldl_attachJoins_nil]
          simp
        refine iff_of_false ?_ (by simp)
        rintro (⟨-, h⟩ | ⟨front, last, h, -⟩)
        · exact htables h
        · simp at h
  · rw [List.concat_eq_append, foldl_attachJoins_append, flatMap_joinsOf]
    exact iff_of_true (.inr ⟨front, ⟨relation, joins⟩, rfl, rfl⟩) (.inr (by simp))

/-! ### GROUP BY -/

def groupingKeys : GroupByExpr → List Expr
  | .expressions exprs _ => exprs
  | .all _ => []

def groupingModifiers : GroupByExpr → List Expr
  | .expressions _ modifiers => modifiers
  | .all modifiers => modifiers

def groupsByAll : GroupByExpr → Bool
  | .expressions _ _ => false
  | .all _ => true

/-- A GROUP BY with the parts of the first one and then of the others. -/
structure JoinsGroupings (first : GroupByExpr) (others : List GroupByExpr)
    (result : GroupByExpr) : Prop where
  keys : groupingKeys result = groupingKeys first ++ others.flatMap groupingKeys
  modifiers : groupingModifiers result = groupingModifiers first ++ others.flatMap groupingModifiers
  all : groupsByAll result = (groupsByAll first || others.any groupsByAll)

/-- GROUP BY lists and GROUP BY ALL do not meet. -/
def OneKind (first : GroupByExpr) (others : List GroupByExpr) : Prop :=
  (∀ g ∈ first :: others, groupsByAll g = false) ∨
    (groupsByAll first = true ∨ first = .expressions [] []) ∧ ∀ g ∈ others, groupsByAll g = true

def groupingSize (g : GroupByExpr) : ℕ := (groupingKeys g).length + (groupingModifiers g).length

theorem groupingSize_extendGroupBy_le (g h : GroupByExpr) :
    groupingSize (extendGroupBy g h) ≤ groupingSize g + groupingSize h := by
  cases g <;> cases h <;>
    simp only [extendGroupBy, groupingSize, groupingKeys, groupingModifiers, List.length_append,
      List.length_nil] <;> omega

/-- How many keys and modifiers there are in all. -/
def groupingsSize (gs : List GroupByExpr) : ℕ :=
  (gs.flatMap groupingKeys).length + (gs.flatMap groupingModifiers).length

theorem groupingsSize_cons (g : GroupByExpr) (gs : List GroupByExpr) :
    groupingsSize (g :: gs) = groupingSize g + groupingsSize gs := by
  simp only [groupingsSize, groupingSize, List.flatMap_cons, List.length_append]
  omega

theorem groupingSize_foldl_le (g : GroupByExpr) (others : List GroupByExpr) :
    groupingSize (others.foldl extendGroupBy g) ≤ groupingSize g + groupingsSize others := by
  induction others generalizing g with
  | nil => exact Nat.le_refl _
  | cons h others ih =>
      have hstep := groupingSize_extendGroupBy_le g h
      have hrest := ih (extendGroupBy g h)
      rw [List.foldl_cons, groupingsSize_cons]
      omega

theorem JoinsGroupings.size {first result : GroupByExpr} {others : List GroupByExpr}
    (h : JoinsGroupings first others result) :
    groupingSize result = groupingSize first + groupingsSize others := by
  rw [groupingSize, groupingSize, h.keys, h.modifiers, groupingsSize, List.length_append,
    List.length_append]
  omega

theorem parts_eq_nil {g : GroupByExpr} (h : groupingSize g = 0) :
    groupingKeys g = [] ∧ groupingModifiers g = [] := by
  rw [groupingSize, Nat.add_eq_zero_iff] at h
  exact h.imp List.length_eq_zero_iff.mp List.length_eq_zero_iff.mp

theorem groupsByAll_foldl {others : List GroupByExpr}
    (h : ∀ g ∈ others, groupsByAll g = false) {first : GroupByExpr}
    (hfirst : groupsByAll first = false) :
    groupsByAll (others.foldl extendGroupBy first) = false := by
  induction others generalizing first with
  | nil => exact hfirst
  | cons g others ih =>
      obtain ⟨hg, hothers⟩ := List.forall_mem_cons.mp h
      refine ih hothers ?_
      cases first <;> cases g <;> simp_all [extendGroupBy, groupsByAll]

theorem eq_empty_of_size {g : GroupByExpr} (hlist : groupsByAll g = false)
    (hsize : groupingSize g = 0) : g = .expressions [] [] := by
  obtain ⟨hkeys, hmodifiers⟩ := parts_eq_nil hsize
  cases g with
  | all modifiers => cases hlist
  | expressions exprs modifiers => exact congrArg₂ GroupByExpr.expressions hkeys hmodifiers

/-- What is replaced and still there was nothing. -/
theorem size_eq_zero_of_replaced {first g : GroupByExpr} {others : List GroupByExpr}
    (h : JoinsGroupings first (g :: others) (others.foldl extendGroupBy g)) :
    groupingSize first = 0 := by
  have hsize := h.size
  have hle := groupingSize_foldl_le g others
  rw [groupingsSize_cons] at hsize
  omega

/-- The other kind replaces what is there. -/
theorem extendGroupBy_of_ne {first g : GroupByExpr} (h : groupsByAll first ≠ groupsByAll g) :
    extendGroupBy first g = g := by
  cases first <;> cases g <;> first | rfl | exact absurd rfl h

theorem joinsGroupings_extendGroupBy {first g : GroupByExpr}
    (h : groupsByAll first = groupsByAll g ∨ first = .expressions [] []) :
    JoinsGroupings first [g] (extendGroupBy first g) := by
  rcases h with h | rfl
  · cases first <;> cases g <;> cases h <;> constructor <;>
      simp [extendGroupBy, groupingKeys, groupingModifiers, groupsByAll]
  · cases g <;> constructor <;>
      simp [extendGroupBy, groupingKeys, groupingModifiers, groupsByAll]

/-- A step that joins two of one kind. -/
theorem joinsGroupings_cons_iff {first g result : GroupByExpr} {others : List GroupByExpr}
    (hstep : JoinsGroupings first [g] (extendGroupBy first g)) :
    JoinsGroupings first (g :: others) result ↔
      JoinsGroupings (extendGroupBy first g) others result := by
  obtain ⟨hkeys, hmodifiers, hall⟩ := hstep
  simp only [List.flatMap_cons, List.flatMap_nil, List.append_nil] at hkeys hmodifiers
  simp only [List.any_cons, List.any_nil, Bool.or_false] at hall
  constructor
  · rintro ⟨h₁, h₂, h₃⟩
    exact ⟨by rw [h₁, hkeys, List.flatMap_cons, List.append_assoc],
      by rw [h₂, hmodifiers, List.flatMap_cons, List.append_assoc],
      by rw [h₃, hall, List.any_cons, Bool.or_assoc]⟩
  · rintro ⟨h₁, h₂, h₃⟩
    exact ⟨by rw [h₁, hkeys, List.flatMap_cons, List.append_assoc],
      by rw [h₂, hmodifiers, List.flatMap_cons, List.append_assoc],
      by rw [h₃, hall, List.any_cons, Bool.or_assoc]⟩

section Step

variable {g : GroupByExpr} {others : List GroupByExpr}

/-- A list comes next: it is joined to a list, and it replaces an ALL. -/
theorem joinsGroupings_list_iff (hlist : groupsByAll g = false) (hg : g ≠ .expressions [] [])
    (ih : ∀ first, JoinsGroupings first others (others.foldl extendGroupBy first) ↔
      OneKind first others) (first : GroupByExpr) :
    JoinsGroupings first (g :: others) (others.foldl extendGroupBy (extendGroupBy first g)) ↔
      OneKind first (g :: others) := by
  cases hfirst : groupsByAll first with
  | false =>
      have hstep := joinsGroupings_extendGroupBy (.inl (hfirst.trans hlist.symm))
      have hkind : groupsByAll (extendGroupBy first g) = false := by
        rw [hstep.all]
        simp [hfirst, hlist]
      have hne : extendGroupBy first g ≠ .expressions [] [] := by
        intro h
        have hsize := hstep.size
        rw [h, groupingsSize_cons] at hsize
        have hempty : groupingSize (.expressions [] []) = 0 := rfl
        exact hg (eq_empty_of_size hlist (by omega))
      rw [joinsGroupings_cons_iff hstep, ih]
      simp [OneKind, hkind, hne, hfirst, hlist]
  | true =>
      refine iff_of_false (fun h => ?_) (by simp [OneKind, hfirst, hlist])
      rw [extendGroupBy_of_ne (by simp [hfirst, hlist])] at h
      -- the parts of the ALL are gone, so it had none
      obtain ⟨hkeys, hmodifiers⟩ := parts_eq_nil (size_eq_zero_of_replaced h)
      have hall := h.all
      rw [hfirst, Bool.true_or] at hall
      cases hothers : others.any groupsByAll with
      | false =>
          simp only [List.any_eq_false, Bool.not_eq_true] at hothers
          rw [groupsByAll_foldl hothers hlist] at hall
          cases hall
      | true =>
          have hrest : JoinsGroupings g others (others.foldl extendGroupBy g) := by
            refine ⟨?_, ?_, by rw [hall, hothers, Bool.or_true]⟩
            · simpa [hkeys] using h.keys
            · simpa [hmodifiers] using h.modifiers
          rcases (ih g).mp hrest with hlists | ⟨hg' | hg', -⟩
          · obtain ⟨g', hg', hg'all⟩ := List.any_eq_true.mp hothers
            rw [hlists g' (List.mem_cons_of_mem _ hg')] at hg'all
            cases hg'all
          · rw [hlist] at hg'
            cases hg'
          · exact hg hg'

/-- ALL comes next: it replaces a list, which is nothing if that is empty. -/
theorem joinsGroupings_all_iff (hall : groupsByAll g = true)
    (ih : ∀ first, JoinsGroupings first others (others.foldl extendGroupBy first) ↔
      OneKind first others) (first : GroupByExpr) :
    JoinsGroupings first (g :: others) (others.foldl extendGroupBy (extendGroupBy first g)) ↔
      OneKind first (g :: others) := by
  have hall' : groupsByAll (extendGroupBy first g) = true := by
    cases first <;> cases g <;> first | rfl | cases hall
  have hrest : OneKind (extendGroupBy first g) others ↔
      ∀ g' ∈ others, groupsByAll g' = true := by
    simp [OneKind, hall']
  have hwhole : OneKind first (g :: others) ↔
      (groupsByAll first = true ∨ first = .expressions [] []) ∧
        ∀ g' ∈ others, groupsByAll g' = true := by
    simp [OneKind, hall]
  rw [hwhole, ← hrest, ← ih]
  constructor
  · intro h
    have hfirst : groupsByAll first = true ∨ first = .expressions [] [] := by
      cases hfirst : groupsByAll first with
      | true => exact .inl rfl
      | false =>
          rw [extendGroupBy_of_ne (by simp [hfirst, hall])] at h
          exact .inr (eq_empty_of_size hfirst (size_eq_zero_of_replaced h))
    have hstep := joinsGroupings_extendGroupBy (hfirst.imp_left (·.trans hall.symm))
    exact ⟨hfirst, (joinsGroupings_cons_iff hstep).mp h⟩
  · rintro ⟨hfirst, h⟩
    have hstep := joinsGroupings_extendGroupBy (hfirst.imp_left (·.trans hall.symm))
    exact (joinsGroupings_cons_iff hstep).mpr h

end Step

/-- Nothing of a GROUP BY is lost exactly when lists and ALL do not meet: the
second kind replaces the first. -/
theorem joinsGroupings_foldl_iff {others : List GroupByExpr}
    (hne : ∀ g ∈ others, g ≠ .expressions [] []) (first : GroupByExpr) :
    JoinsGroupings first others (others.foldl extendGroupBy first) ↔ OneKind first others := by
  induction others generalizing first with
  | nil =>
      refine iff_of_true ⟨by simp, by simp, by simp⟩ ?_
      cases first with
      | expressions exprs modifiers => exact .inl (by simp [groupsByAll])
      | all modifiers => exact .inr ⟨.inl rfl, by simp⟩
  | cons g others ih =>
      obtain ⟨hg, hothers⟩ := List.forall_mem_cons.mp hne
      rw [List.foldl_cons]
      cases hkind : groupsByAll g with
      | false => exact joinsGroupings_list_iff hkind hg (ih hothers) first
      | true => exact joinsGroupings_all_iff hkind (ih hothers) first

/-! ### ORDER BY -/

/-- The options of ORDER BY ALL. -/
def orderAll : Option OrderBy → Option OrderByOptions
  | some ⟨.all options, _⟩ => some options
  | _ => none

theorem sortKeys_addOrderBy (existing : Option OrderBy) (exprs : List OrderByExpr) :
    sortKeys (addOrderBy existing exprs) = sortKeys existing ++ exprs := by
  cases exprs with
  | nil => simp [addOrderBy]
  | cons e es => rcases existing with _ | ⟨_ | _, _⟩ <;> rfl

theorem interpolate_addOrderBy (existing : Option OrderBy) (exprs : List OrderByExpr) :
    (addOrderBy existing exprs).bind OrderBy.interpolate =
      existing.bind OrderBy.interpolate := by
  cases exprs with
  | nil => rfl
  | cons e es => rcases existing with _ | ⟨_ | _, _⟩ <;> rfl

/-- Sort keys replace ORDER BY ALL. -/
theorem orderAll_addOrderBy_iff (existing : Option OrderBy) (exprs : List OrderByExpr) :
    orderAll (addOrderBy existing exprs) = orderAll existing ↔
      exprs = [] ∨ orderAll existing = none := by
  cases exprs with
  | nil => simp [addOrderBy]
  | cons e es => rcases existing with _ | ⟨_ | _, _⟩ <;> simp [addOrderBy, orderAll]

/-! ### The statement with scopes -/

section Statement

variable {m : ScopeManager}

/-- Every clause has the elements read in the texts of its scopes behind its
own, all of them and in order, and everything else is as before. -/
structure Extended (parser : Parser) (it : m.Iteration) (q : Query) (select : Select) (q' : Query)
    (select' : Select) : Prop where
  body : q'.body = .select select'
  items : select'.projection = select.projection ++
    (ScopeManager.getScopesByTarget it .select).flatMap (itemsOf parser)
  tables : AppendsJoins
    (select.from ++ (ScopeManager.getScopesByTarget it .from).flatMap (tablesOf parser))
    ((ScopeManager.getScopesByTarget it .join).flatMap (joinsIn parser)) select'.from
  groupBy : JoinsGroupings select.groupBy
    ((ScopeManager.getScopesByTarget it .groupBy).flatMap (groupingOf parser)) select'.groupBy
  sortKeys : sortKeys q'.orderBy = sortKeys q.orderBy ++
    (ScopeManager.getScopesByTarget it .orderBy).flatMap (sortKeysOf parser)
  orderAll : orderAll q'.orderBy = orderAll q.orderBy
  interpolate : q'.orderBy.bind OrderBy.interpolate = q.orderBy.bind OrderBy.interpolate
  orderBy : ScopeManager.getScopesByTarget it .orderBy = [] → q'.orderBy = q.orderBy
  selection : ScopeManager.getScopesByTarget it .where = [] → select'.selection = select.selection
  having : ScopeManager.getScopesByTarget it .having = [] → select'.having = select.having
  otherClauses : select' = { select with
    projection := select'.projection
    «from» := select'.from
    selection := select'.selection
    groupBy := select'.groupBy
    having := select'.having }
  otherParts : q' = { q with body := q'.body, orderBy := q'.orderBy }

/-- The statement with scopes has all of them and is otherwise as before, and
there is an error if and only if the text of a scope is no list of its
clause. -/
def ExtendsClauses (parser : Parser) (it : m.Iteration) (q : Query) (select : Select) : Prop :=
  match applyScopesToQuery parser it q select with
  | .error _ => ∃ scope ∈ m.getActiveScopes, ¬ IsList parser scope
  | .ok q' =>
      (∀ scope ∈ m.getActiveScopes, IsList parser scope) ∧
        ∃ select', Extended parser it q select q' select'

/-- Scopes that fit the statement: their texts are lists, those of SELECT of
one item; joins have a table; GROUP BY lists and GROUP BY ALL do not meet, nor
do sort keys and ORDER BY ALL. -/
structure Fits (parser : Parser) (it : m.Iteration) (q : Query) (select : Select) : Prop where
  lists : ∀ scope ∈ m.getActiveScopes, IsList parser scope
  oneItem : ∀ scope ∈ ScopeManager.getScopesByTarget it .select,
    (itemsOf parser scope).length ≤ 1
  joined : ScopeManager.getScopesByTarget it .join = [] ∨
    select.from ++ (ScopeManager.getScopesByTarget it .from).flatMap (tablesOf parser) ≠ []
  oneKind : OneKind select.groupBy
    ((ScopeManager.getScopesByTarget it .groupBy).flatMap (groupingOf parser))
  notAll : ScopeManager.getScopesByTarget it .orderBy = [] ∨ orderAll q.orderBy = none

variable {parser : Parser} {it : m.Iteration}

theorem isList_of_target {target : ScopeTarget} {scope : ScopeDefinition}
    (h : ∀ scope ∈ m.getActiveScopes, IsList parser scope)
    (hscope : scope ∈ ScopeManager.getScopesByTarget it target) :
    IsList parser scope ∧ scope.target = target := by
  obtain ⟨hactive, htarget⟩ := mem_getScopesByTarget.mp hscope
  exact ⟨h scope hactive, htarget⟩

theorem tablesWith_eq {fromScopes joinScopes : List ScopeDefinition}
    (h : ∀ scope ∈ joinScopes, joinedOf parser scope = [⟨dummyTable, joinsIn parser scope⟩])
    (tables : List TableWithJoins) :
    tablesWith parser tables fromScopes joinScopes =
      ((joinScopes.flatMap (joinedOf parser)).map some).foldl attachJoins
        (tables ++ fromScopes.flatMap (tablesOf parser)) := by
  have hjoined : joinScopes.flatMap (added (joinTable parser)) =
      (joinScopes.flatMap (joinedOf parser)).map some := by
    rw [List.map_flatMap]
    refine List.flatMap_congr fun scope hscope => ?_
    rw [added_joined (h scope hscope), h scope hscope]
    rfl
  rw [tablesWith, hjoined]
  simp only [added_tables]

theorem flatMap_added_sortKeys (scopes : List ScopeDefinition) :
    (scopes.flatMap (added (orderByExpressionsOf parser))).flatten =
      scopes.flatMap (sortKeysOf parser) := by
  rw [List.flatten_eq_flatMap, List.flatMap_assoc]
  refine List.flatMap_congr fun scope _ => ?_
  rw [← added_sortKeys, List.flatten_eq_flatMap]

/-- The query with scopes, in terms of what is read in their texts. -/
theorem applyScopesToQuery_read {q q' : Query} {select : Select}
    (h : applyScopesToQuery parser it q select = .ok q')
    (hlists : ∀ scope ∈ m.getActiveScopes, IsList parser scope) :
    ∃ selection having,
      (ScopeManager.getScopesByTarget it .where = [] → selection = select.selection) ∧
      (ScopeManager.getScopesByTarget it .having = [] → having = select.having) ∧
      q' = { q with
        body := .select { select with
          projection := select.projection ++
            (ScopeManager.getScopesByTarget it .select).flatMap
              fun scope => (itemsOf parser scope).head?.toList
          «from» := (((ScopeManager.getScopesByTarget it .join).flatMap
            (joinedOf parser)).map some).foldl attachJoins
              (select.from ++ (ScopeManager.getScopesByTarget it .from).flatMap (tablesOf parser))
          selection := selection
          groupBy := ((ScopeManager.getScopesByTarget it .groupBy).flatMap
            (groupingOf parser)).foldl extendGroupBy select.groupBy
          having := having }
        orderBy := addOrderBy q.orderBy
          ((ScopeManager.getScopesByTarget it .orderBy).flatMap (sortKeysOf parser)) } := by
  obtain ⟨-, selection, having, hselection, hhaving, rfl⟩ := applyScopesToQuery_clauses h
  refine ⟨selection, having, fun hnone => ?_, fun hnone => ?_, ?_⟩
  · rw [hnone] at hselection
    exact (Except.ok.inj hselection).symm
  · rw [hnone] at hhaving
    exact (Except.ok.inj hhaving).symm
  · have hjoined : ∀ scope ∈ ScopeManager.getScopesByTarget it .join,
        joinedOf parser scope = [⟨dummyTable, joinsIn parser scope⟩] := by
      intro scope hscope
      obtain ⟨hlist, htarget⟩ := isList_of_target hlists hscope
      exact joinedOf_of_isList htarget hlist
    rw [tablesWith_eq hjoined, flatMap_added_sortKeys]
    simp only [funext added_items, funext added_groupings]

/-- Where the texts are lists, nothing is lost exactly if the scopes fit. -/
theorem extended_iff_fits {q q' : Query} {select : Select}
    (h : applyScopesToQuery parser it q select = .ok q')
    (hlists : ∀ scope ∈ m.getActiveScopes, IsList parser scope) :
    (∃ select', Extended parser it q select q' select') ↔ Fits parser it q select := by
  obtain ⟨selection, having, hselection, hhaving, rfl⟩ := applyScopesToQuery_read h hlists
  have hjoins : (ScopeManager.getScopesByTarget it .join).flatMap (joinsIn parser) =
      ((ScopeManager.getScopesByTarget it .join).flatMap (joinedOf parser)).flatMap
        TableWithJoins.joins := by
    rw [List.flatMap_assoc]
    rfl
  have hjoined : (ScopeManager.getScopesByTarget it .join).flatMap (joinedOf parser) = [] ↔
      ScopeManager.getScopesByTarget it .join = [] := by
    rw [List.flatMap_eq_nil_iff, List.eq_nil_iff_forall_not_mem]
    refine forall₂_congr fun scope hscope => iff_of_false ?_ id
    obtain ⟨hlist, htarget⟩ := isList_of_target hlists hscope
    simp [joinedOf_of_isList htarget hlist]
  have hsorted : (ScopeManager.getScopesByTarget it .orderBy).flatMap (sortKeysOf parser) = [] ↔
      ScopeManager.getScopesByTarget it .orderBy = [] := by
    rw [List.flatMap_eq_nil_iff, List.eq_nil_iff_forall_not_mem]
    refine forall₂_congr fun scope hscope => iff_of_false ?_ id
    obtain ⟨hlist, htarget⟩ := isList_of_target hlists hscope
    exact sortKeysOf_of_isList htarget hlist
  have hgroupings : ∀ g ∈ (ScopeManager.getScopesByTarget it .groupBy).flatMap
      (groupingOf parser), g ≠ .expressions [] [] := by
    intro g hg
    obtain ⟨scope, hscope, hg⟩ := List.mem_flatMap.mp hg
    obtain ⟨hlist, htarget⟩ := isList_of_target hlists hscope
    exact groupingOf_of_isList htarget hlist g hg
  constructor
  · rintro ⟨select', hextended⟩
    obtain rfl := SetExpr.select.inj hextended.body
    refine ⟨hlists, flatMap_head_eq_iff.mp (List.append_cancel_left hextended.items), ?_,
      (joinsGroupings_foldl_iff hgroupings _).mp hextended.groupBy, ?_⟩
    · have htables := hextended.tables
      rw [hjoins, appendsJoins_foldl_iff, hjoined] at htables
      exact htables
    · have hall := (orderAll_addOrderBy_iff _ _).mp hextended.orderAll
      rw [hsorted] at hall
      exact hall
  · intro hfits
    refine ⟨_, {
      body := rfl
      items := congrArg (select.projection ++ ·) (flatMap_head_eq_iff.mpr hfits.oneItem)
      tables := ?_
      groupBy := (joinsGroupings_foldl_iff hgroupings _).mpr hfits.oneKind
      sortKeys := sortKeys_addOrderBy _ _
      orderAll := (orderAll_addOrderBy_iff _ _).mpr (hfits.notAll.imp_left hsorted.mpr)
      interpolate := interpolate_addOrderBy _ _
      orderBy := fun hnone => by rw [hsorted.mpr hnone]; rfl
      selection := hselection
      having := hhaving
      otherClauses := rfl
      otherParts := rfl }⟩
    rw [hjoins, appendsJoins_foldl_iff, hjoined]
    exact hfits.joined

/-- The result is the printed query with scopes. -/
theorem applyScopesToSql_select {D : Display} {sql : List Char} {q : Query} {select : Select}
    (hactive : m.hasActiveScopes = true) (hparse : parseSql parser sql = .ok (some (.query q)))
    (hbody : q.body = .select select) :
    applyScopesToSql parser D m it sql =
      (applyScopesToQuery parser it q select).map fun q' => render (D.query q') := by
  rw [applyScopesToSql, hactive, parseQuery, hparse]
  simp only [Except.mapError, Bind.bind, Except.bind, hbody]
  cases applyScopesToQuery parser it q select <;> rfl

/-- An error is about a text the parser does not read. -/
theorem applyScopesToQuery_error {q : Query} {select : Select} {err : SynError}
    (h : applyScopesToQuery parser it q select = .error err) :
    ∃ scope ∈ m.getActiveScopes, ¬ Reads parser scope := by
  by_contra hreads
  push Not at hreads
  obtain ⟨q', hq'⟩ := exists_applyScopesToQuery it q select fun scope hscope =>
    (parses_iff_reads scope).mpr (hreads scope hscope)
  rw [h] at hq'
  cases hq'

/-- The statement that is printed has all of the scopes exactly where the text
of one is not read, or where they fit the statement. -/
theorem scopes_extend_clauses_iff {D : Display} {sql : List Char} {q : Query} {select : Select}
    (hactive : m.hasActiveScopes = true) (hparse : parseSql parser sql = .ok (some (.query q)))
    (hbody : q.body = .select select) :
    applyScopesToSql parser D m it sql =
        (applyScopesToQuery parser it q select).map (fun q' => render (D.query q')) ∧
      (ExtendsClauses parser it q select ↔
        (∃ scope ∈ m.getActiveScopes, ¬ Reads parser scope) ∨ Fits parser it q select) := by
  refine ⟨applyScopesToSql_select hactive hparse hbody, ?_⟩
  unfold ExtendsClauses
  cases happly : applyScopesToQuery parser it q select with
  | error err =>
      obtain ⟨scope, hscope, hrefused⟩ := applyScopesToQuery_error happly
      exact iff_of_true ⟨scope, hscope, fun hlist => hrefused (reads_of_isList hlist)⟩
        (.inl ⟨scope, hscope, hrefused⟩)
  | ok q' =>
      have hreads : ¬ ∃ scope ∈ m.getActiveScopes, ¬ Reads parser scope := by
        rintro ⟨scope, hscope, hrefused⟩
        exact hrefused ((parses_iff_reads scope).mp
          ((applyScopesToQuery_clauses happly).1 scope hscope))
      rw [or_iff_right hreads]
      constructor
      · rintro ⟨hlists, hextended⟩
        exact (extended_iff_fits happly hlists).mp hextended
      · intro hfits
        exact ⟨hfits.lists, (extended_iff_fits happly hfits.lists).mpr hfits⟩

end Statement

/-! ### Examples -/

namespace ClauseExample

open Reference

def column (name : String) : SelectItem := .unnamedExpr (.identifier (.new name))

/-- `SELECT age FROM users` -/
def ages : Query := simpleQuery (.select (simpleSelect [column "age"] "users" none))

/-- `SELECT id, name`, the text a scope is parsed in. -/
def columnsText : Query := bareQuery (bareSelect [column "id", column "name"])

def byNameKey : OrderByExpr := ⟨.identifier (.new "name"), ⟨some true, none⟩, none⟩

/-- `SELECT 1 ORDER BY name ASC` -/
def byNameText : Query :=
  { bareQuery (bareSelect [dummyItem]) with orderBy := some ⟨.expressions [byNameKey], none⟩ }

/-- `SELECT 1 ORDER BY name ASC LIMIT 5` -/
def firstFiveText : Query :=
  { byNameText with limitClause := some (.limitOffset (some (.value (.number "5" false))) none []) }

def parser : Parser := parserOfAll [ages, columnsText, byNameText, firstFiveText]

def columns : ScopeManager := ScopeManager.new.addScope "columns" "id, name" .select

def firstFive : ScopeManager := ScopeManager.new.addScope "first" "name ASC LIMIT 5" .orderBy

def byName : ScopeManager := ScopeManager.new.addScope "by_name" "name ASC" .orderBy

end ClauseExample

open ClauseExample Reference

/-- Of `id, name` only `id` is selected, and a LIMIT behind a sort key is
dropped; there is no error. -/
theorem scope_parts_dropped :
    applyScopesToSql ClauseExample.parser Display.reference columns (keptOrder columns)
        (text ages) = .ok "SELECT age, id FROM users".toList ∧
      ¬ ExtendsClauses ClauseExample.parser (keptOrder columns) ages
        (simpleSelect [column "age"] "users" none) ∧
      applyScopesToSql ClauseExample.parser Display.reference firstFive (keptOrder firstFive)
        (text ages) = .ok "SELECT age FROM users ORDER BY name ASC".toList ∧
      ¬ ExtendsClauses ClauseExample.parser (keptOrder firstFive) ages
        (simpleSelect [column "age"] "users" none) := by
  refine ⟨by decide, ?_, by decide, ?_⟩
  · rintro ⟨-, select', hextended⟩
    have hlength := congrArg List.length hextended.items
    rw [← SetExpr.select.inj hextended.body] at hlength
    exact absurd hlength (by decide)
  · rintro ⟨hlists, -⟩
    obtain ⟨-, hread⟩ := hlists ⟨"first", "name ASC LIMIT 5", .orderBy⟩ (by decide)
    exact absurd (congrArg (fun q => (q.bind Query.limitClause).isSome) hread) (by decide)

/-- A scope with a sort key and nothing else. -/
theorem by_name_extends_clauses :
    applyScopesToSql ClauseExample.parser Display.reference byName (keptOrder byName)
        (text ages) = .ok "SELECT age FROM users ORDER BY name ASC".toList ∧
      ExtendsClauses ClauseExample.parser (keptOrder byName) ages
        (simpleSelect [column "age"] "users" none) := by
  obtain ⟨hsql, hextends⟩ := @scopes_extend_clauses_iff byName ClauseExample.parser
    (keptOrder byName) Display.reference (text ages) ages (simpleSelect [column "age"] "users" none)
    (by decide) rfl rfl
  refine ⟨hsql.trans (by decide), hextends.mpr (.inr ?_)⟩
  exact {
    lists := by
      intro scope hscope
      obtain rfl : scope = ⟨"by_name", "name ASC", .orderBy⟩ := List.mem_singleton.mp hscope
      exact ⟨List.cons_ne_nil byNameKey [], rfl⟩
    oneItem := by
      have hnone : ScopeManager.getScopesByTarget (keptOrder byName) .select = [] := by decide
      simp [hnone]
    joined := .inl rfl
    oneKind := .inl (by decide)
    notAll := .inr rfl }

end SqlxData.Macros
