import SqlxData.Dynamic.FilterTruth
import SqlxData.Dynamic.Printed
import SqlxData.Sqlparser.Reference

/-!
When the builder functions succeed: their inputs are accepted and the
eight-bit counter has room for the placeholders they take. There is one rule
for each way the functions are put together and one lemma for each function.
-/

namespace SqlxData

open SqlxData.Sqlparser SqlxData.Dynamic

/-- The operator takes the value of the filter. -/
def Filter.accepted (f : Filter) : Bool :=
  match f.operator, f.value with
  | .between, .array [_, _] => true
  | .between, _ => false
  | .in, .array values | .notIn, .array values => !values.isEmpty
  | .in, _ | .notIn, _ => false
  | .contains, .string _ => true
  | .contains, _ => false
  | _, _ => true

/-- All filters are accepted. -/
def FiltersAccepted (filters : Option FilterParams) : Prop :=
  ∀ f ∈ filters.elim [] (·.filters), f.accepted = true

/-- A SELECT is among the parts of the set expression that get conditions. -/
def Sqlparser.SetExpr.hasSelect : SetExpr → Bool
  | .select _ => true
  | .setOperation _ _ left right => left.hasSelect || right.hasSelect
  | .query ⟨_, body, _, _, _, _⟩ => body.hasSelect
  | _ => false

namespace Dynamic

variable {α β : Type} {cfg : Config}

/-! ### Room in the counter -/

/-- The generator can make `count` placeholders more. -/
def Fits (cfg : Config) (n : UInt8) (count : ℕ) : Prop :=
  cfg.backend = .mysql ∨ cfg.overflowChecks = false ∨ n.toNat + count < 2 ^ 8

instance (cfg : Config) (n : UInt8) (count : ℕ) : Decidable (Fits cfg n count) :=
  inferInstanceAs (Decidable (_ ∨ _ ∨ _))

theorem fits_zero (cfg : Config) (n : UInt8) : Fits cfg n 0 := .inr (.inr n.toNat_lt)

theorem fits_add (n : UInt8) (i j : ℕ) :
    Fits cfg n (i + j) ↔ Fits cfg n i ∧ Fits cfg (advance cfg n i) j := by
  by_cases hmysql : cfg.backend = .mysql
  · simp [Fits, hmysql]
  by_cases hchecks : cfg.overflowChecks = false
  · simp [Fits, hchecks]
  have hadvance : advance cfg n i = n + UInt8.ofNat i := by
    rw [advance]
    split
    · contradiction
    · rfl
  simp only [Fits, hmysql, hchecks, Bool.true_eq_false, false_or, hadvance]
  constructor
  · intro h
    have hi : i % 2 ^ 8 = i := Nat.mod_eq_of_lt (by omega)
    refine ⟨by omega, ?_⟩
    rw [UInt8.toNat_add, UInt8.toNat_ofNat', hi, Nat.mod_eq_of_lt (by omega)]
    omega
  · rintro ⟨h, h'⟩
    have hi : i % 2 ^ 8 = i := Nat.mod_eq_of_lt (by omega)
    rw [UInt8.toNat_add, UInt8.toNat_ofNat', hi, Nat.mod_eq_of_lt (by omega)] at h'
    omega

theorem Fits.mono {n : UInt8} {i j : ℕ} (h : Fits cfg n j) (hij : i ≤ j) : Fits cfg n i := by
  obtain ⟨k, rfl⟩ := Nat.exists_eq_add_of_le hij
  exact ((fits_add n i k).mp h).1

/-! ### Runs -/

/-- `m`, which binds `vs`, succeeds when the guard holds and the counter has
room. -/
def Runs (cfg : Config) (guard : Prop) (vs : List FilterValue) (m : BuildM α) : Prop :=
  ∀ s, (∃ r, m.run s = .ok r) ↔ guard ∧ Fits cfg s.n vs.length

theorem Runs.congr {guard guard' : Prop} {vs ws : List FilterValue} {m : BuildM α}
    (h : Runs cfg guard vs m) (hguard : guard ↔ guard') (hvs : guard → vs = ws) :
    Runs cfg guard' ws m := by
  intro s
  rw [h s, ← hguard]
  exact and_congr_right fun hg => by rw [hvs hg]

theorem runs_throw (vs : List FilterValue) (err : SqlxError) :
    Runs cfg False vs (throw err : BuildM α) := by
  intro s
  simp only [false_and, iff_false, not_exists]
  exact fun r h => nomatch h

theorem runs_pure (a : α) : Runs cfg True [] (pure a : BuildM α) := fun s =>
  iff_of_true ⟨(a, s), rfl⟩ ⟨trivial, fits_zero cfg s.n⟩

theorem runs_bind (v : FilterValue) : Runs cfg True [v] (bind cfg v) := by
  intro s
  have hrun : (bind cfg v).run s = (nextPlaceholder cfg s.n).bind fun p =>
      .ok (valueExpr (.placeholder p.1 (.pushed v)), ⟨s.bindValues ++ [v], p.2⟩) := rfl
  have hone : (1 : UInt8).toNat = 1 := rfl
  rw [hrun]
  cases hbackend : cfg.backend with
  | mysql => simp [nextPlaceholder, Fits, hbackend, Except.bind]
  | sqlite | postgres =>
      cases hchecks : cfg.overflowChecks with
      | false => simp [nextPlaceholder, addU8, Fits, hbackend, hchecks, Except.bind, Bind.bind]
      | true =>
          by_cases hover : s.n.toNat + 1 ≥ 2 ^ 8
          · simp [nextPlaceholder, addU8, Fits, hbackend, hchecks, hone, Except.bind, Bind.bind,
              show 256 ≤ s.n.toNat + 1 from hover]
          · simp [nextPlaceholder, addU8, Fits, hbackend, hchecks, hone, Except.bind, Bind.bind,
              show ¬256 ≤ s.n.toNat + 1 from hover, show s.n.toNat + 1 < 256 by omega]

theorem Runs.seq {guard guard' : Prop} {vs ws : List FilterValue} {P : List Mark → α → Prop}
    {m : BuildM α} {f : α → BuildM β} (hm : Runs cfg guard vs m) (hvs : Emits cfg vs P m)
    (hf : ∀ a, Runs cfg guard' ws (f a)) :
    Runs cfg (guard ∧ guard') (vs ++ ws) (m >>= f) := by
  intro s
  rw [List.length_append, fits_add, and_and_and_comm, ← hm s]
  constructor
  · rintro ⟨r, hr⟩
    rw [StateT.run_bind] at hr
    obtain ⟨⟨a, s'⟩, hrun, hrest⟩ := Core.exists_of_bind_eq_ok hr
    obtain rfl := hvs.run_eq hrun
    exact ⟨⟨_, hrun⟩, (hf a _).mp ⟨r, hrest⟩⟩
  · rintro ⟨⟨⟨a, s'⟩, hrun⟩, hrest⟩
    obtain rfl := hvs.run_eq hrun
    obtain ⟨r, hr⟩ := (hf a ⟨_, _⟩).mpr hrest
    exact ⟨r, by rw [StateT.run_bind, hrun]; exact hr⟩

theorem Runs.map {guard : Prop} {vs : List FilterValue} {m : BuildM α} (hm : Runs cfg guard vs m)
    (g : α → β) : Runs cfg guard vs (m >>= fun a => pure (g a)) := by
  intro s
  rw [← hm s]
  constructor
  · rintro ⟨r, hr⟩
    rw [StateT.run_bind] at hr
    obtain ⟨result, hrun, -⟩ := Core.exists_of_bind_eq_ok hr
    exact ⟨result, hrun⟩
  · rintro ⟨⟨a, s'⟩, hrun⟩
    exact ⟨(g a, s'), by rw [StateT.run_bind, hrun]; rfl⟩

theorem runs_mapM {γ : Type} {guard : γ → Prop} {values : γ → List FilterValue}
    {P : List Mark → α → Prop} {f : γ → BuildM α} (hf : ∀ x, Runs cfg (guard x) (values x) (f x))
    (hvalues : ∀ x, Emits cfg (values x) P (f x)) (xs : List γ) :
    Runs cfg (∀ x ∈ xs, guard x) (xs.flatMap values) (xs.mapM f) := by
  induction xs with
  | nil => exact (runs_pure []).congr (by simp) fun _ => rfl
  | cons x xs ih =>
      rw [List.mapM_cons]
      exact ((hf x).seq (hvalues x) fun a => ih.map (a :: ·)).congr (by simp) fun _ => rfl

/-! ### The functions -/

theorem runs_inListFilter (operator : String) {f : Filter}
    (hoperator : f.operator = .in ∨ f.operator = .notIn) :
    Runs cfg (f.accepted = true) (filterValues cfg f) (inListFilter cfg operator f) := by
  obtain ⟨field, op, value, negated⟩ := f
  cases value with
  | array values =>
      have hvalues : filterValues cfg ⟨field, op, .array values, negated⟩ = values := by
        rcases hoperator with rfl | rfl <;> rfl
      have haccepted : Filter.accepted ⟨field, op, .array values, negated⟩ = !values.isEmpty := by
        rcases hoperator with rfl | rfl <;> rfl
      simp only [inListFilter, hvalues, haccepted]
      cases hempty : values.isEmpty with
      | true => exact (runs_throw values _).congr (by simp) False.elim
      | false =>
          exact ((runs_mapM runs_bind (emits_bind_shows Display.reference) values).map _).congr
            (by simp) fun _ => by simp
  | _ =>
      refine (runs_throw [] _).congr ?_ False.elim
      rcases hoperator with rfl | rfl <;> simp [Filter.accepted]

theorem runs_filterExpr (f : Filter) :
    Runs cfg (f.accepted = true) (filterValues cfg f) (filterExpr cfg f) := by
  obtain ⟨field, operator, value, negated⟩ := f
  have hone : ∀ v (g : Expr → Expr), Runs cfg (true = true) [v]
      (bind cfg v >>= fun e => pure (g e)) := fun v g =>
    ((runs_bind v).map g).congr (by simp) fun _ => rfl
  cases operator with
  | eq | ne | gt | gte | lt | lte | like | unsafeLike => exact hone value _
  | iLike =>
      cases hbackend : cfg.backend with
      | postgres =>
          simp only [filterExpr, filterValues, hbackend]
          exact hone value _
      | sqlite | mysql =>
          simp only [filterExpr, filterValues, hbackend]
          cases value <;> exact hone _ _
  | between =>
      cases value with
      | array arr =>
          rcases arr with _ | ⟨low, _ | ⟨high, _ | ⟨third, rest⟩⟩⟩
          · exact (runs_throw [] _).congr (by simp [Filter.accepted]) False.elim
          · exact (runs_throw [] _).congr (by simp [Filter.accepted]) False.elim
          · exact ((runs_bind low).seq (emits_bind_shows Display.reference low) fun lowPh =>
              (runs_bind high).map (fun highPh => between field lowPh highPh negated)).congr
                (by simp [Filter.accepted]) fun _ => rfl
          · exact (runs_throw [] _).congr (by simp [Filter.accepted]) False.elim
      | _ => exact (runs_throw [] _).congr (by simp [Filter.accepted]) False.elim
  | isNull | isNotNull => exact (runs_pure _).congr (by simp [Filter.accepted]) fun _ => rfl
  | «in» => exact runs_inListFilter "In" (.inl rfl)
  | notIn => exact runs_inListFilter "NotIn" (.inr rfl)
  | contains =>
      cases value with
      | string s => exact hone _ _
      | _ => exact (runs_throw [] _).congr (by simp [Filter.accepted]) False.elim

theorem runs_filterExprs (filters : Option FilterParams) :
    Runs cfg (FiltersAccepted filters) (filterParamsValues cfg filters)
      (filterExprs cfg filters) := by
  cases filters with
  | none => exact (runs_pure _).congr (by simp [FiltersAccepted]) fun _ => rfl
  | some filterParams =>
      exact runs_mapM runs_filterExpr (emits_filterExpr Display.reference) filterParams.filters

theorem runs_searchFieldExpr (search : SearchParams) (pattern field : String) :
    Runs cfg True [.string pattern] (searchFieldExpr cfg search pattern field) := by
  cases hcase : search.caseSensitive <;>
    simp only [searchFieldExpr, hcase, if_true, Bool.false_eq_true, if_false] <;>
    exact (runs_bind _).map _

theorem runs_searchCondition (search : Option SearchParams) :
    Runs cfg True (searchParamsValues search) (searchCondition cfg search) := by
  cases search with
  | none => exact runs_pure []
  | some search =>
      rw [searchCondition, searchExprs, searchParamsValues, searchValues]
      split
      · exact (runs_mapM (runs_searchFieldExpr search _)
          (emits_searchFieldExpr Display.reference search _) search.fields).congr (by simp)
            fun _ => List.map_eq_flatMap.symm
      · exact runs_pure []

theorem runs_dynamicParts {params : Params} (hcursor : WithoutCursor params) :
    Runs cfg (FiltersAccepted params.filters) (selectValues cfg params)
      (dynamicParts cfg params) := by
  have hvalues : paginationValues cfg params.sortBy params.pagination = [] := by
    rcases hpagination : params.pagination with _ | _ | _ | cursor
    · rfl
    · rfl
    · rfl
    · simp only [paginationValues, hcursor cursor hpagination, if_true]
  rw [dynamicParts, cursorCondition_of_withoutCursor hcursor]
  simp only [pure_bind]
  exact ((runs_filterExprs params.filters).seq (emits_filterExprs Display.reference params.filters)
    fun filters => (runs_searchCondition params.search).map (DynamicParts.mk filters · none)).congr
      (by simp) fun _ => by rw [selectValues, hvalues, List.append_nil]

theorem runs_processSetExpr {params : Params} (hcursor : WithoutCursor params) (e : SetExpr) :
    Runs cfg (e.hasSelect = true → FiltersAccepted params.filters) (setExprValues cfg params e)
      (processSetExpr cfg params e) := by
  fun_induction processSetExpr cfg params e with
  | case1 select =>
      exact (((runs_dynamicParts hcursor).map _).map SetExpr.select).congr
        (by simp [SetExpr.hasSelect]) fun _ => rfl
  | case2 op quantifier left right ihl ihr =>
      refine (ihl.seq (emits_processSetExpr Display.reference params left) fun left' =>
        ihr.map (SetExpr.setOperation op quantifier left')).congr ?_ fun _ => rfl
      rw [SetExpr.hasSelect, Bool.or_eq_true, or_imp]
  | case3 ctes body order limit fetch rest ih => exact ih.map _
  | case4 rows => exact (runs_pure _).congr (by simp [SetExpr.hasSelect]) fun _ => rfl
  | case5 name => exact (runs_pure _).congr (by simp [SetExpr.hasSelect]) fun _ => rfl
  | case6 form args => exact (runs_pure _).congr (by simp [SetExpr.hasSelect]) fun _ => rfl

/-- A SELECT that gets conditions gets the values of the request. -/
theorem length_selectValues_le (params : Params) {e : SetExpr} (h : e.hasSelect = true) :
    (selectValues cfg params).length ≤ (setExprValues cfg params e).length := by
  fun_induction SetExpr.hasSelect e with
  | case1 select => exact le_rfl
  | case2 op quantifier left right ihl ihr =>
      rw [setExprValues, List.length_append]
      rcases Bool.or_eq_true_iff.mp h with h | h
      · exact (ihl h).trans (Nat.le_add_right _ _)
      · exact (ihr h).trans (Nat.le_add_left _ _)
  | case3 ctes body order limit fetch rest ih => exact ih h
  | case4 => cases h

/-! ### The query -/

theorem exists_bind_eq_ok_iff {ε : Type} {m : Except ε α} {f : α → Except ε β} :
    (∃ b, (m >>= f) = .ok b) ↔ ∃ a, m = .ok a ∧ ∃ b, f a = .ok b := by
  cases m with
  | error e => simp [Bind.bind, Except.bind]
  | ok a => simp [Bind.bind, Except.bind]

/-- The eight-bit counter has room for the base values and for those of the
request. -/
structure HasRoom (cfg : Config) (q : Query) (params : Params) (bindCount maxExisting : ℕ) :
    Prop where
  start : cfg.overflowChecks = true → (startIndex bindCount maxExisting).toNat + 1 < 2 ^ 8
  values : Fits cfg (startIndex bindCount maxExisting + 1) (setExprValues cfg params q.body).length

/-- A statement is built for the request: no sum overflows where that panics,
and a SELECT that gets conditions has accepted filters. -/
structure Buildable (cfg : Config) (q : Query) (params : Params) (bindCount maxExisting : ℕ) :
    Prop where
  counter : HasRoom cfg q params bindCount maxExisting
  filters : q.body.hasSelect = true → FiltersAccepted params.filters
  limit : ∀ limit ∈ params.limit, cfg.overflowChecks = true →
    limit.toNat + params.limitPlusOne.toNat < 2 ^ 32

theorem addU8_ok_iff (a b : UInt8) : (∃ sum, addU8 cfg a b = .ok sum) ↔
    (cfg.overflowChecks = true → a.toNat + b.toNat < 2 ^ 8) := by
  rw [addU8]
  split
  · rename_i h
    exact iff_of_false (by simp) fun h' => absurd (h' h.1) (by omega)
  · rename_i h
    exact iff_of_true ⟨_, rfl⟩ fun hchecks => by
      by_contra hge
      exact h ⟨hchecks, by omega⟩

theorem addU32_ok_iff (a b : UInt32) : (∃ sum, addU32 cfg a b = .ok sum) ↔
    (cfg.overflowChecks = true → a.toNat + b.toNat < 2 ^ 32) := by
  rw [addU32]
  split
  · rename_i h
    exact iff_of_false (by simp) fun h' => absurd (h' h.1) (by omega)
  · rename_i h
    exact iff_of_true ⟨_, rfl⟩ fun hchecks => by
      by_contra hge
      exact h ⟨hchecks, by omega⟩

theorem limitClauseOf_ok_iff (params : Params) (existing : Option LimitClause) :
    (∃ clause, limitClauseOf cfg params existing = .ok clause) ↔
      ∀ limit ∈ params.limit, cfg.overflowChecks = true →
        limit.toNat + params.limitPlusOne.toNat < 2 ^ 32 := by
  have hrest : ∀ limitExpr : Option Expr, ∃ clause : Option LimitClause,
      (if limitExpr.isSome || (offsetExprOf params).isSome then
        .ok (some (.limitOffset limitExpr (offsetExprOf params) []))
      else .ok existing : Except SqlxError (Option LimitClause)) = .ok clause := by
    intro limitExpr
    split <;> exact ⟨_, rfl⟩
  rw [limitClauseOf, exists_bind_eq_ok_iff]
  simp only [hrest, and_true, limitExprOf]
  cases hlimit : params.limit with
  | none => simp
  | some limit =>
      simp only [exists_bind_eq_ok_iff, addU32_ok_iff, Option.mem_def, Option.some.injEq,
        forall_eq', Except.ok.injEq, exists_eq', and_true]

theorem processQuery_ok_iff {params : Params} (hcursor : WithoutCursor params) (q : Query)
    (bindValues : List FilterValue) (maxExisting : ℕ) :
    (∃ r, processQuery cfg q params bindValues maxExisting = .ok r) ↔
      Buildable cfg q params bindValues.length maxExisting := by
  have hruns : Runs cfg _ _ (processSetExpr cfg params q.body) := runs_processSetExpr hcursor q.body
  rw [processQuery, exists_bind_eq_ok_iff]
  constructor
  · rintro ⟨n, hn, hrest⟩
    obtain rfl := addU8_eq_ok hn
    rw [exists_bind_eq_ok_iff] at hrest
    obtain ⟨r, hbody, hrest⟩ := hrest
    obtain ⟨clause, hclause, -⟩ := exists_bind_eq_ok_iff.mp hrest
    obtain ⟨hfilters, hroom⟩ := (hruns _).mp ⟨r, hbody⟩
    exact ⟨⟨(addU8_ok_iff _ _).mp ⟨_, hn⟩, hroom⟩, hfilters,
      (limitClauseOf_ok_iff _ _).mp ⟨clause, hclause⟩⟩
  · rintro ⟨⟨hstart, hroom⟩, hfilters, hlimit⟩
    obtain ⟨n, hn⟩ := (addU8_ok_iff (startIndex bindValues.length maxExisting) 1).mpr hstart
    obtain rfl := addU8_eq_ok hn
    obtain ⟨r, hbody⟩ := (hruns ⟨bindValues, _⟩).mpr ⟨hfilters, hroom⟩
    obtain ⟨clause, hclause⟩ := (limitClauseOf_ok_iff params q.limitClause).mpr hlimit
    exact ⟨_, hn, exists_bind_eq_ok_iff.mpr
      ⟨r, hbody, exists_bind_eq_ok_iff.mpr ⟨clause, hclause, _, rfl⟩⟩⟩

/-! ### The built statement -/

/-- What is made of a processed query. -/
def finished (D : Display) (numbers : List ℕ) (r : Query × List FilterValue) : BuiltSql :=
  let (sql, bindValues) := renumberNumberedPlaceholdersWithBinds r.2 numbers
    (maxPlaceholder numbers) (render (D.query r.1))
  ⟨sql, bindValues⟩

section Build

variable {D : Display} {parser : Core.Parser} {baseSql : List Char} {params : Params} {q : Query}
  {initialBinds : List FilterValue} {base : List FilterValue × List ℕ}

theorem buildDynamicSql_of_query (hparse : Core.parseSql parser baseSql = .ok (some (.query q)))
    (hnonEmpty : params.isEmpty = false)
    (hbase : baseBinds baseSql (.query q) params initialBinds = base) :
    buildDynamicSql cfg D parser baseSql params initialBinds =
      (processQuery cfg q params base.1 (maxPlaceholder base.2)).map (finished D base.2) := by
  unfold buildDynamicSql dynamicStatement
  rw [hparse]
  simp only [Except.mapError, hbase, hnonEmpty, Bool.false_eq_true, if_false, Bind.bind, Except.bind]
  cases processQuery cfg q params base.1 (maxPlaceholder base.2) <;> rfl

theorem buildDynamicSql_error_iff (hparse : Core.parseSql parser baseSql = .ok (some (.query q)))
    (hnonEmpty : params.isEmpty = false) (hcursor : WithoutCursor params)
    (hbase : baseBinds baseSql (.query q) params initialBinds = base) :
    (∃ err, buildDynamicSql cfg D parser baseSql params initialBinds = .error err) ↔
      ¬Buildable cfg q params base.1.length (maxPlaceholder base.2) := by
  rw [buildDynamicSql_of_query hparse hnonEmpty hbase, ← processQuery_ok_iff hcursor]
  cases processQuery cfg q params base.1 (maxPlaceholder base.2) with
  | error err => exact iff_of_true ⟨err, rfl⟩ (by simp)
  | ok r => exact iff_of_false (fun ⟨err, h⟩ => nomatch h) (by simp)

end Build

end Dynamic

end SqlxData
