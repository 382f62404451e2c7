import SqlxData.Dynamic.Grouping
import SqlxData.Macros.ScopeText

/-!
Requests to a method with scopes. The macro writes the scopes behind the WHERE
of the base statement; the text is parsed again for every call, and the builder
writes the conditions of the request behind both. Which rows pass the statement
that is sent, against the conditions all three parts were written for.
-/

namespace SqlxData.Macros

open SqlxData.Sqlparser SqlxData.Core SqlxData.Dynamic BoolText BoolText.Formula ThreeValued

/-! ### Clauses written from several conditions -/

/-- The clause prints the conditions one after another, joined by AND, as if
each was put down without parentheses. -/
def Juxtaposed (es : List Expr) (clause : Option Expr) : Prop :=
  (es = [] ∧ clause = none) ∨
    ∃ e rest joined, es = e :: rest ∧ clause = some joined ∧
      joined.skeleton.print = (e.skeleton.andAll (rest.map Expr.skeleton)).print

/-- The clause of a printed statement and what the parser reads there. -/
def RereadAs (clause found : Option Expr) : Prop :=
  found.map Expr.skeleton = clause.bind fun e => read e.skeleton.print

theorem RereadAs.juxtaposed {es : List Expr} {clause found : Option Expr}
    (h : RereadAs clause found) (hes : Juxtaposed es clause) :
    Juxtaposed es found ∧ ∀ e ∈ found, e.skeleton.Canonical := by
  rcases hes with ⟨rfl, rfl⟩ | ⟨e, rest, joined, rfl, rfl, hprint⟩
  · have hnone : found = none := by simpa [RereadAs] using h
    subst hnone
    exact ⟨Or.inl ⟨rfl, rfl⟩, by simp⟩
  · rw [RereadAs, Option.bind_some] at h
    cases found with
    | none => rw [read_print_eq] at h; cases h
    | some e₁ =>
        obtain ⟨hcanonical, htext⟩ := canonical_of_read h.symm
        refine ⟨Or.inr ⟨e, rest, e₁, rfl, rfl, htext.trans hprint⟩, ?_⟩
        rintro _ ⟨⟩
        exact hcanonical

theorem juxtaposed_toList (clause : Option Expr) : Juxtaposed clause.toList clause := by
  cases clause with
  | none => exact Or.inl ⟨rfl, rfl⟩
  | some e => exact Or.inr ⟨e, [], e, rfl, rfl, rfl⟩

theorem passesClause_of_juxtaposed {es : List Expr} {clause : Option Expr}
    (h : Juxtaposed es clause) (hcanonical : ∀ e ∈ es, e.skeleton.Canonical)
    (value : Expr → Truth) :
    PassesClause value clause ↔ SomeRunHolds value (weave (es.map Expr.skeleton)) := by
  rcases h with ⟨rfl, rfl⟩ | ⟨e, rest, joined, rfl, rfl, hprint⟩
  · simp [PassesClause, weave]
  · have hpasses := @passesText_andAll_iff value e joined rest hcanonical hprint
    simpa [PassesClause] using hpasses

/-! ### The conditions of the request -/

section Request

variable {parts : DynamicParts} {es : List Expr} {clause : Option Expr}

theorem factors_of_combined_eq_none (h : parts.combined = none) : parts.factors = [] := by
  have hnil (op : Expr → Expr → Expr) (l : List Expr) (hl : reduce op l = none) : l = [] := by
    cases l with
    | nil => rfl
    | cons e es => cases hl
  have hempty := hnil groupedAnd _ h
  simp only [List.append_eq_nil_iff, Option.toList_eq_nil_iff] at hempty
  obtain ⟨⟨hfilters, hsearch⟩, hcursor⟩ := hempty
  rw [DynamicParts.factors, hnil and _ hfilters, hsearch, hcursor]
  rfl

/-- Behind a clause that is there the conditions of the request are put down
factor by factor. -/
theorem juxtaposed_withDynamicWhere {e : Expr} (hparts : parts.WellShaped)
    (h : Juxtaposed es (some e)) :
    Juxtaposed (es ++ parts.factors) (withDynamicWhere (some e) parts.combined) := by
  rcases h with ⟨-, hnone⟩ | ⟨first, rest, joined, rfl, hjoined, hprint⟩
  · cases hnone
  obtain rfl := Option.some.inj hjoined
  refine Or.inr ⟨first, rest ++ parts.factors, ?_⟩
  cases hcombined : parts.combined with
  | none =>
      rw [factors_of_combined_eq_none hcombined, List.append_nil, List.append_nil]
      exact ⟨e, rfl, rfl, hprint⟩
  | some combined =>
      obtain ⟨f, fs, hfactors, hskeleton⟩ := hparts.skeleton_combined hcombined
      refine ⟨_, rfl, rfl, ?_⟩
      calc
        (Dynamic.and e (grouped combined)).skeleton.print =
            (Formula.and e.skeleton (f.skeleton.andAll (fs.map Expr.skeleton))).print := by
          rw [← hskeleton]
          rfl
        _ = (e.skeleton.andAll ((f :: fs).map Expr.skeleton)).print :=
          print_and_andAll _ _ _
        _ = ((first.skeleton.andAll (rest.map Expr.skeleton)).andAll
              ((f :: fs).map Expr.skeleton)).print :=
          print_andAll_congr hprint _
        _ = (first.skeleton.andAll ((rest ++ parts.factors).map Expr.skeleton)).print := by
          rw [hfactors, List.map_append, andAll, andAll, andAll, List.foldl_append]

/-- A row passes the clause with the request behind it when some run of all
the conditions holds. -/
theorem passes_withDynamicWhere_iff (hparts : parts.WellShaped) (h : Juxtaposed es clause)
    (hcanonical : ∀ e ∈ es, e.skeleton.Canonical) (value : Expr → Truth) :
    PassesClause value (withDynamicWhere clause parts.combined) ↔
      SomeRunHolds value (weave ((es ++ parts.factors).map Expr.skeleton)) := by
  have hfactors : ∀ e ∈ parts.factors, e.skeleton.Canonical :=
    fun e he => (hparts.literal e he).of_literal
  cases clause with
  | some e =>
      exact passesClause_of_juxtaposed (juxtaposed_withDynamicWhere hparts h)
        (List.forall_mem_append.mpr ⟨hcanonical, hfactors⟩) value
  | none =>
      obtain ⟨rfl, -⟩ | ⟨_, _, _, -, hsome, -⟩ := h
      swap
      · cases hsome
      have hsingle : weave (parts.factors.map Expr.skeleton) =
          [parts.factors.map Expr.skeleton] :=
        weave_of_single (List.forall_mem_map.mpr fun e he => (hparts.literal e he).alternatives)
      have hall : SomeRunHolds value (weave (parts.factors.map Expr.skeleton)) ↔
          parts.Holds value := by
        rw [hsingle, ← parts.factors_hold_iff value]
        simp [RunHolds, Satisfies]
      rw [List.nil_append, hall]
      cases hcombined : parts.combined with
      | none =>
          have hholds := parts.holds_of_combined_eq_none value hcombined
          simp [withDynamicWhere, PassesClause, hholds]
      | some combined =>
          -- the condition stands alone, without the parentheses it has behind a WHERE
          obtain ⟨f, fs, hfs, hskeleton⟩ := hparts.skeleton_combined hcombined
          have hholds : Satisfies value combined ↔ parts.Holds value := by
            rw [← satisfies_grouped value combined, Satisfies, hskeleton, holds_andAll,
              ← parts.factors_hold_iff value, hfs]
            simp [Satisfies]
          rw [← hholds, ← passesText_of_canonical (hparts.canonical hcombined)]
          simp [withDynamicWhere, PassesClause]

/-- A request takes rows away and adds none. -/
theorem passesClause_of_withDynamicWhere (hparts : parts.WellShaped)
    (hcanonical : ∀ e ∈ clause, e.skeleton.Canonical) {value : Expr → Truth}
    (h : PassesClause value (withDynamicWhere clause parts.combined)) :
    PassesClause value clause := by
  rintro e he
  obtain rfl := Option.mem_def.mp he
  have hlist : ∀ e' ∈ (some e).toList, e'.skeleton.Canonical := by
    simpa using hcanonical e rfl
  have hrun := (passes_withDynamicWhere_iff hparts (juxtaposed_toList (some e)) hlist value).mp h
  rw [passesText_of_canonical (hcanonical e rfl)]
  have hsingle : ∀ f ∈ parts.factors.map Expr.skeleton, f.alternatives = [f] :=
    List.forall_mem_map.mpr fun e he => (hparts.literal e he).alternatives
  exact holds_of_someRunHolds_cons e.skeleton hsingle hrun

end Request

/-! ### From the scopes to the statement that is sent -/

section Method

variable {parser : Parser} {m : ScopeManager} {it : m.Iteration} {q q₁ : Query}
  {select : Select}

/-- The parser reads the conditions of the scoped statement with NOT over AND
over OR. -/
def RereadsScoped (parser : Parser) (it : m.Iteration) (q : Query) (select : Select)
    (q₁ : Query) : Prop :=
  ∀ q' select', applyScopesToQuery parser it q select = .ok q' → q'.body = .select select' →
    ∃ select₁, q₁.body = .select select₁ ∧ RereadAs select'.selection select₁.selection ∧
      RereadAs select'.having select₁.having

theorem canonical_conditions {conditionOf : ScopeDefinition → Except SynError Expr}
    {existing : Option Expr} {scopes : List ScopeDefinition} {conditions : List Expr}
    (hexisting : ∀ e ∈ existing, e.skeleton.Canonical)
    (hscope : ∀ scope e, conditionOf scope = .ok e → e.skeleton.Canonical)
    (h : scopes.mapM conditionOf = .ok conditions) :
    ∀ e ∈ existing.toList ++ conditions, e.skeleton.Canonical := by
  refine List.forall_mem_append.mpr ⟨by simpa using hexisting, ?_⟩
  rw [forall_mapM_iff h]
  exact fun scope _ e he => hscope scope e he

theorem satisfiesScopes_iff (conditionOf : ScopeDefinition → Except SynError Expr)
    {target : ScopeTarget} {conditions : List Expr} (value : Expr → Truth)
    (h : (ScopeManager.getScopesByTarget it target).mapM conditionOf = .ok conditions) :
    SatisfiesScopes value conditionOf m target ↔ ∀ e ∈ conditions, Satisfies value e := by
  rw [forall_mapM_iff h]
  simp only [mem_getScopesByTarget, and_imp]
  rfl

/-- The clauses of the text with scopes, as they are parsed when the method is
called: the base clause and the scopes, put down one after another. -/
theorem scoped_clauses {D : Display} {sql scopedSql : List Char}
    (hparse : parseSql parser sql = .ok (some (.query q))) (hbody : q.body = .select select)
    (happly : applyScopesToSql parser D m it sql = .ok scopedSql)
    (hreparse : parseSql parser scopedSql = .ok (some (.query q₁)))
    (hreread : RereadsScoped parser it q select q₁) :
    ∃ whereConditions havingConditions select₁,
      buildWhereConditions parser (ScopeManager.getScopesByTarget it .where) =
        .ok whereConditions ∧
      buildHavingConditions parser (ScopeManager.getScopesByTarget it .having) =
        .ok havingConditions ∧
      q₁.body = .select select₁ ∧
      Juxtaposed (select.selection.toList ++ whereConditions) select₁.selection ∧
      Juxtaposed (select.having.toList ++ havingConditions) select₁.having := by
  rw [applyScopesToSql] at happly
  cases hactive : m.hasActiveScopes with
  | false =>
      -- no scopes: the text stays as it is
      simp only [hactive, Bool.not_false, if_true, Except.ok.injEq] at happly
      subst happly
      have hsame : q₁ = q := by
        have h := hreparse.symm.trans hparse
        simpa using h
      subst hsame
      have hnone : m.getActiveScopes = [] := by
        simpa [ScopeManager.hasActiveScopes] using hactive
      have hempty (target : ScopeTarget) : ScopeManager.getScopesByTarget it target = [] := by
        rw [List.eq_nil_iff_forall_not_mem]
        intro scope hscope
        have hmem := (mem_getScopesByTarget.mp hscope).1
        rw [hnone] at hmem
        cases hmem
      refine ⟨[], [], select, by rw [hempty]; rfl, by rw [hempty]; rfl, hbody, ?_, ?_⟩
      · rw [List.append_nil]
        exact juxtaposed_toList select.selection
      · rw [List.append_nil]
        exact juxtaposed_toList select.having
  | true =>
      simp only [hactive, Bool.not_true, Bool.false_eq_true, if_false] at happly
      obtain ⟨query, hquery, happly⟩ := exists_of_bind_eq_ok happly
      obtain rfl : query = q := by
        have h := (parseQuery_eq_ok hquery).symm.trans hparse
        simpa using h
      simp only [hbody] at happly
      obtain ⟨q', hscoped, -⟩ := exists_of_bind_eq_ok happly
      obtain ⟨select', whereConditions, havingConditions, hbody', hwhere, hhaving, hselection,
        haddHaving⟩ := applyScopesToQuery_eq_ok hscoped
      obtain ⟨select₁, hbody₁, hrereadWhere, hrereadHaving⟩ := hreread q' select' hscoped hbody'
      exact ⟨whereConditions, havingConditions, select₁, hwhere, hhaving, hbody₁,
        (hrereadWhere.juxtaposed (addConditions_eq_ok hselection)).1,
        (hrereadHaving.juxtaposed (addConditions_eq_ok haddHaving)).1⟩

/-- Conditions without a top-level OR in front of the factors of a request are
never torn apart. -/
theorem runsComplete_of_plain {parts : DynamicParts} (hparts : parts.WellShaped) {es : List Expr}
    (hplain : ∀ e ∈ es, openAlternatives e = []) (value : Expr → Truth) :
    RunsComplete value (es ++ parts.factors) := by
  refine runsComplete_of_single (List.forall_mem_append.mpr ⟨fun e he => ?_, fun e he =>
    (hparts.literal e he).alternatives⟩) value
  have hopen := hplain e he
  rw [openAlternatives] at hopen
  generalize e.skeleton = f at hopen
  cases f with
  | or f g =>
      rw [alternatives, List.dropLast_concat] at hopen
      exact absurd hopen f.alternatives_ne_nil
  | _ => rfl

/-- A request to a method with scopes. The rows that pass the WHERE that is
sent pass the WHERE of the method, whatever the request asks for. A row passes
exactly when it satisfies the base WHERE, the scopes and the request, if and
only if every run of them that holds there brings all of them along; this is
so on every row, for every request, when neither the base WHERE nor a scope
has a top-level OR. The HAVING is not touched. MySQL's XOR and `||` are operands
here. -/
theorem scoped_request_isolated_iff {cfg : Config} {params : Params} {D : Display}
    {sql scopedSql : List Char} {initialBinds : List FilterValue} {built : BuiltSql}
    (hparser : CanonicalParser parser) (hparse : parseSql parser sql = .ok (some (.query q)))
    (hbody : q.body = .select select)
    (happly : applyScopesToSql parser D m it sql = .ok scopedSql)
    (hreparse : parseSql parser scopedSql = .ok (some (.query q₁)))
    (hreread : RereadsScoped parser it q select q₁)
    (hbuild : buildDynamicSql cfg D parser scopedSql params initialBinds = .ok built) :
    ∃ whereConditions havingConditions select₁ q₂ select₂ parts,
      buildWhereConditions parser (ScopeManager.getScopesByTarget it .where) =
        .ok whereConditions ∧
      buildHavingConditions parser (ScopeManager.getScopesByTarget it .having) =
        .ok havingConditions ∧
      q₁.body = .select select₁ ∧ PrintedFrom D q₂ built.sql ∧ selects q₂.body = [select₂] ∧
      GeneratedParts cfg params parts ∧
      (∀ value,
        (PassesClause value select₂.selection → PassesClause value select₁.selection) ∧
        ((PassesClause value select₂.selection ↔ (∀ e ∈ select.selection, Satisfies value e) ∧
            SatisfiesScopes value (whereCondition parser) m .where ∧ parts.Holds value) ↔
          RunsComplete value (select.selection.toList ++ whereConditions ++ parts.factors)) ∧
        ((PassesClause value select₂.having ↔ (∀ e ∈ select.having, Satisfies value e) ∧
            SatisfiesScopes value (havingCondition parser) m .having) ↔
          RunsComplete value (select.having.toList ++ havingConditions))) ∧
      ((∀ e ∈ select.selection.toList ++ whereConditions, openAlternatives e = []) →
        ∀ value, RunsComplete value
          (select.selection.toList ++ whereConditions ++ parts.factors)) := by
  obtain ⟨whereConditions, havingConditions, select₁, hwhere, hhaving, hbody₁, hjuxtaposed,
    hjuxtaposedHaving⟩ := scoped_clauses hparse hbody happly hreparse hreread
  obtain ⟨q₂, hsql, hselects⟩ := exists_extended_of_build hreparse hbuild
  rw [hbody₁, selects, List.forall₂_cons_left_iff] at hselects
  obtain ⟨select₂, rest, ⟨parts, hparts, rfl⟩, hrest, hselect₂⟩ := hselects
  obtain rfl := List.forall₂_nil_left_iff.mp hrest
  have hshape : parts.WellShaped := by
    obtain ⟨s, s', hrun⟩ := hparts
    exact yields_dynamicParts s parts s' hrun
  have hcanonical : ∀ e ∈ select.selection.toList ++ whereConditions, e.skeleton.Canonical :=
    canonical_conditions (hparser sql q select hparse hbody).1
      (fun scope e he => parseCondition_canonical
        (fun sql q select hsql hq => (hparser sql q select hsql hq).1) he) hwhere
  have hcanonicalHaving : ∀ e ∈ select.having.toList ++ havingConditions,
      e.skeleton.Canonical :=
    canonical_conditions (hparser sql q select hparse hbody).2
      (fun scope e he => parseCondition_canonical
        (fun sql q select hsql hq => (hparser sql q select hsql hq).2) he) hhaving
  refine ⟨whereConditions, havingConditions, select₁, q₂, _, parts, hwhere, hhaving, hbody₁, hsql,
    hselect₂, hparts, fun value => ⟨?_, ?_, ?_⟩, fun hplain => runsComplete_of_plain hshape hplain⟩
  · exact passesClause_of_withDynamicWhere hshape
      (hparser scopedSql q₁ select₁ hreparse hbody₁).1
  · have hall : ((∀ e ∈ select.selection, Satisfies value e) ∧
        SatisfiesScopes value (whereCondition parser) m .where ∧ parts.Holds value) ↔
          ∀ e ∈ select.selection.toList ++ whereConditions ++ parts.factors,
            Satisfies value e := by
      rw [satisfiesScopes_iff (whereCondition parser) value hwhere, ← parts.factors_hold_iff value, List.forall_mem_append,
        List.forall_mem_append, and_assoc]
      simp
    have hexact := @someRunHolds_iff_forall_iff _ value
      ((select.selection.toList ++ whereConditions ++ parts.factors).map Expr.skeleton)
    rw [hall, passes_withDynamicWhere_iff hshape hjuxtaposed hcanonical]
    simp only [List.forall_mem_map] at hexact
    exact hexact
  · have hall : ((∀ e ∈ select.having, Satisfies value e) ∧
        SatisfiesScopes value (havingCondition parser) m .having) ↔
          ∀ e ∈ select.having.toList ++ havingConditions, Satisfies value e := by
      rw [satisfiesScopes_iff (havingCondition parser) value hhaving, List.forall_mem_append]
      simp
    have hexact := @someRunHolds_iff_forall_iff _ value
      ((select.having.toList ++ havingConditions).map Expr.skeleton)
    rw [hall, passesClause_of_juxtaposed hjuxtaposedHaving hcanonicalHaving]
    simp only [List.forall_mem_map] at hexact
    exact hexact

end Method

/-! ### An example -/

namespace ScopedRequestExample

open Reference ScopeExample

def adult : Expr := comparison "age" .gt "18"

/-- The WHERE of the scoped text, as it is read back. -/
def adultOfTenant : Expr := .binaryOp adult .and (comparison "tenant_id" .eq "7")

def scopedParser : Parser := parserOfAll [users adult, tenantText, users adultOfTenant]

theorem canonical_scopedParser : CanonicalParser scopedParser := by
  intro sql q select hsql hbody
  have hq := mem_of_parserOfAll hsql
  simp only [List.mem_cons, List.not_mem_nil, or_false] at hq
  rcases hq with rfl | rfl | rfl <;> cases hbody <;>
    simp [simpleSelect, adultOfTenant, adult, comparison, Expr.skeleton, Canonical, FitsAt]

theorem rereads_adultOfTenant :
    RereadsScoped scopedParser (onlyOrder tenantScope) (users adult)
      (simpleSelect [.wildcard] "users" (some adult)) (users adultOfTenant) := by
  intro q' select' happly hbody'
  obtain rfl := Except.ok.inj happly
  obtain rfl := SetExpr.select.inj hbody'
  exact ⟨_, rfl, rfl, rfl⟩

end ScopedRequestExample

open ScopedRequestExample ScopeExample Reference SqlxData.Dynamic.Example

/-- A filter on a method of the tenant: the rows of the tenant are filtered. -/
theorem scoped_request_isolated_tenant :
    ∃ whereConditions havingConditions select₁ q₂ select₂ parts,
      buildWhereConditions scopedParser
        (ScopeManager.getScopesByTarget (onlyOrder tenantScope) .where) = .ok whereConditions ∧
      buildHavingConditions scopedParser
        (ScopeManager.getScopesByTarget (onlyOrder tenantScope) .having) = .ok havingConditions ∧
      (users adultOfTenant).body = .select select₁ ∧
      PrintedFrom Display.reference q₂
        "SELECT * FROM users WHERE age > 18 AND tenant_id = 7 AND city = $1".toList ∧
      selects q₂.body = [select₂] ∧ GeneratedParts (build .sqlite) inBonn parts ∧
      (∀ value,
        (PassesClause value select₂.selection → PassesClause value select₁.selection) ∧
        ((PassesClause value select₂.selection ↔ (∀ e ∈ some adult, Satisfies value e) ∧
            SatisfiesScopes value (whereCondition scopedParser) tenantScope .where ∧
            parts.Holds value) ↔
          RunsComplete value ((some adult).toList ++ whereConditions ++ parts.factors)) ∧
        ((PassesClause value select₂.having ↔ (∀ e ∈ (none : Option Expr), Satisfies value e) ∧
            SatisfiesScopes value (havingCondition scopedParser) tenantScope .having) ↔
          RunsComplete value ((none : Option Expr).toList ++ havingConditions))) ∧
      ((∀ e ∈ (some adult).toList ++ whereConditions, openAlternatives e = []) →
        ∀ value, RunsComplete value
          ((some adult).toList ++ whereConditions ++ parts.factors)) :=
  @scoped_request_isolated_iff scopedParser tenantScope (onlyOrder tenantScope) (users adult)
    (users adultOfTenant) (simpleSelect [.wildcard] "users" (some adult)) (build .sqlite) inBonn
    Display.reference (text (users adult)) (text (users adultOfTenant)) []
    ⟨"SELECT * FROM users WHERE age > 18 AND tenant_id = 7 AND city = $1".toList,
      [.string "Bonn"]⟩
    canonical_scopedParser rfl rfl rfl rfl rereads_adultOfTenant rfl

end SqlxData.Macros
