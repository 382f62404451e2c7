import SqlxData.Dynamic.BoundText
import SqlxData.Dynamic.WhereText

/-!
The words of a built statement: those of the base statement and the field
names of the request. Where these have no `$number` in them, the numbering
finds the placeholders and nothing else.
-/

namespace SqlxData.Dynamic

open SqlxData.Sqlparser SqlxData.Core NumberedText

variable {cfg : Config} {params : Params}

/-! ### Words of expressions -/

section Words

variable (D : Display)

theorem plainWords_append {ts us : List Tok} :
    PlainWords (ts ++ us) ↔ PlainWords ts ∧ PlainWords us := by
  simp [PlainWords, or_imp, forall_and]

theorem plainWords_commaSep {parts : List (List Tok)} (h : ∀ part ∈ parts, PlainWords part) :
    PlainWords (commaSep parts) := by
  cases parts with
  | nil => simp [commaSep, PlainWords]
  | cons part parts =>
      refine plainWords_append.mpr ⟨h part (by simp), ?_⟩
      intro t ht
      obtain ⟨other, hother, ht⟩ := List.mem_flatMap.mp ht
      rcases List.mem_cons.mp ht with rfl | ht
      · exact show placeholderNumbers ", ".toList = [] by decide
      · exact h other (by simp [hother]) t ht

/-- The sort fields are names without a `$number` in them. -/
def PlainFields (sorts : List SortField) : Prop :=
  ∀ sort ∈ sorts, placeholderNumbers sort.field.toList = []

theorem plainWords_idExpr {name : String} (h : placeholderNumbers name.toList = []) :
    PlainWords (D.expr (idExpr name)) := by
  rw [idExpr, D.expr_identifier, D.ident_new]
  exact plainWords_cons.mpr ⟨h, by simp [PlainWords]⟩

theorem plainWords_bin {l r : Expr} {op : BinaryOperator} (hl : PlainWords (D.expr l))
    (hr : PlainWords (D.expr r)) (hop : placeholderNumbers (" " ++ op.symbol ++ " ").toList = []) :
    PlainWords (D.expr (bin op l r)) := by
  rw [bin, D.expr_binaryOp]
  exact plainWords_append.mpr ⟨hl, plainWords_cons.mpr ⟨hop, hr⟩⟩

theorem plainWords_nested {e : Expr} (h : PlainWords (D.expr e)) :
    PlainWords (D.expr (.nested e)) := by
  rw [D.expr_nested]
  exact plainWords_cons.mpr ⟨by decide, plainWords_append.mpr ⟨h, by decide⟩⟩

theorem plainWords_placeholder (text : String) (origin : Origin) :
    PlainWords (D.expr (valueExpr (.placeholder text origin))) := by
  rw [valueExpr, D.expr_placeholder]
  exact plainWords_cons.mpr ⟨trivial, by simp [PlainWords]⟩

theorem plainWords_numberExpr (n : ℕ) : PlainWords (D.expr (numberExpr n)) := by
  rw [numberExpr, valueExpr, D.expr_number]
  refine plainWords_cons.mpr ⟨numbers_pieces_of_plain fun hdollar => ?_, by simp [PlainWords]⟩
  have := isDigit_of_mem_toString hdollar
  simp at this

theorem placeholderNumbers_options (asc : Bool) (nullsFirst : Option Bool) :
    placeholderNumbers (OrderByOptions.text ⟨some asc, nullsFirst⟩).toList = [] := by
  cases asc <;> rcases nullsFirst with _ | _ | _ <;> decide

theorem plainWords_orderByOf {sorts : List SortField} (hfields : PlainFields sorts)
    (invert : Bool) : PlainWords (D.orderBy (some (orderByOf sorts invert))) := by
  have h := D.orderBy_expressions (sorts.map fun s => (idExpr s.field,
    ⟨some (if invert then !s.isAsc else s.isAsc), s.nullsAsBool⟩))
  rw [List.map_map] at h
  have horder : D.orderBy (some (orderByOf sorts invert)) = _ := h
  rw [horder, List.map_map]
  refine plainWords_cons.mpr ⟨by decide, plainWords_commaSep ?_⟩
  rintro _ hpart
  obtain ⟨sort, hsort, rfl⟩ := List.mem_map.mp hpart
  refine plainWords_append.mpr ⟨plainWords_idExpr D (hfields sort hsort), ?_⟩
  exact plainWords_cons.mpr ⟨placeholderNumbers_options _ _, by simp [PlainWords]⟩

theorem plainWords_backslash : PlainWords (D.escape (some backslash)) := by
  rw [backslash, D.escape_backslash]
  decide

theorem plainWords_escapeChar (backend : Backend) : PlainWords (D.escape (escapeChar backend)) := by
  cases backend with
  | mysql =>
      rw [escapeChar, D.escape_none]
      simp [PlainWords]
  | sqlite | postgres => exact plainWords_backslash D

theorem plainWords_like {e pattern : Expr} {escape : Option Value} (negated : Bool)
    (he : PlainWords (D.expr e)) (hpattern : PlainWords (D.expr pattern))
    (hescape : PlainWords (D.escape escape)) :
    PlainWords (D.expr (.like negated e pattern escape)) := by
  rw [D.expr_like]
  refine plainWords_append.mpr ⟨plainWords_append.mpr ⟨he, plainWords_cons.mpr ⟨?_, hpattern⟩⟩,
    hescape⟩
  cases negated <;> decide

theorem plainWords_ilike {e pattern : Expr} {escape : Option Value} (negated : Bool)
    (he : PlainWords (D.expr e)) (hpattern : PlainWords (D.expr pattern))
    (hescape : PlainWords (D.escape escape)) :
    PlainWords (D.expr (.ilike negated e pattern escape)) := by
  rw [D.expr_ilike]
  refine plainWords_append.mpr ⟨plainWords_append.mpr ⟨he, plainWords_cons.mpr ⟨?_, hpattern⟩⟩,
    hescape⟩
  cases negated <;> decide

theorem plainWords_inList {e : Expr} {list : List Expr} (negated : Bool)
    (he : PlainWords (D.expr e)) (hlist : ∀ v ∈ list, PlainWords (D.expr v)) :
    PlainWords (D.expr (.inList e list negated)) := by
  rw [D.expr_inList]
  have hvalues : PlainWords (commaSep (list.map D.expr)) := by
    refine plainWords_commaSep fun part hpart => ?_
    obtain ⟨v, hv, rfl⟩ := List.mem_map.mp hpart
    exact hlist v hv
  refine plainWords_append.mpr ⟨plainWords_append.mpr ⟨he, plainWords_cons.mpr ⟨?_, hvalues⟩⟩,
    by decide⟩
  cases negated <;> decide

theorem plainWords_between {e low high : Expr} (negated : Bool) (he : PlainWords (D.expr e))
    (hlow : PlainWords (D.expr low)) (hhigh : PlainWords (D.expr high)) :
    PlainWords (D.expr (.between e negated low high)) := by
  rw [D.expr_between]
  refine plainWords_append.mpr ⟨plainWords_append.mpr ⟨he, plainWords_cons.mpr ⟨?_, hlow⟩⟩,
    plainWords_cons.mpr ⟨by decide, hhigh⟩⟩
  cases negated <;> decide

theorem plainWords_isNull {e : Expr} (he : PlainWords (D.expr e)) :
    PlainWords (D.expr (.isNull e)) ∧ PlainWords (D.expr (.isNotNull e)) := by
  rw [D.expr_isNull, D.expr_isNotNull]
  exact ⟨plainWords_append.mpr ⟨he, by decide⟩, plainWords_append.mpr ⟨he, by decide⟩⟩

theorem plainWords_lowerExpr {e : Expr} (he : PlainWords (D.expr e)) :
    PlainWords (D.expr (lowerExpr e)) := by
  rw [lowerExpr, D.expr_call, D.ident_new]
  refine plainWords_append.mpr ⟨plainWords_cons.mpr ⟨by decide, ?_⟩, by decide⟩
  exact plainWords_commaSep fun part hpart => by rwa [List.mem_singleton.mp hpart]

theorem plainWords_grouped {e : Expr} (he : PlainWords (D.expr e)) :
    PlainWords (D.expr (grouped e)) := by
  rw [grouped]
  split
  · exact plainWords_nested D he
  · exact he

theorem plainWords_foldl {op : Expr → Expr → Expr}
    (hop : ∀ l r, PlainWords (D.expr l) → PlainWords (D.expr r) → PlainWords (D.expr (op l r)))
    {first : Expr} {es : List Expr} (hfirst : PlainWords (D.expr first))
    (hes : ∀ e ∈ es, PlainWords (D.expr e)) : PlainWords (D.expr (es.foldl op first)) := by
  induction es generalizing first with
  | nil => exact hfirst
  | cons e es ih =>
      obtain ⟨he, hes⟩ := List.forall_mem_cons.mp hes
      exact ih (hop first e hfirst he) hes

theorem plainWords_reduce {op : Expr → Expr → Expr}
    (hop : ∀ l r, PlainWords (D.expr l) → PlainWords (D.expr r) → PlainWords (D.expr (op l r)))
    {es : List Expr} (hes : ∀ e ∈ es, PlainWords (D.expr e)) :
    ∀ e ∈ reduce op es, PlainWords (D.expr e) := by
  cases es with
  | nil => rintro e ⟨⟩
  | cons first es =>
      rintro _ ⟨⟩
      obtain ⟨hfirst, hes⟩ := List.forall_mem_cons.mp hes
      exact plainWords_foldl D hop hfirst hes

end Words

/-! ### Words of the generated conditions -/

section Conditions

variable (D : Display)

/-- A field name of the request without a `$number` in it. -/
def PlainName (name : String) : Prop := placeholderNumbers name.toList = []

instance (name : String) : Decidable (PlainName name) :=
  inferInstanceAs (Decidable (placeholderNumbers name.toList = []))

/-- The field names a request writes into the statement. -/
structure PlainRequest (params : Params) : Prop where
  filters : ∀ filterParams ∈ params.filters, ∀ f ∈ filterParams.filters, PlainName f.field
  search : ∀ search ∈ params.search, ∀ field ∈ search.fields, PlainName field
  sorts : ∀ sortBy ∈ params.sortBy, PlainFields sortBy.sorts

theorem yields_bind_plain (v : FilterValue) :
    Yields (fun e => PlainWords (D.expr e)) (bind cfg v) := by
  refine (yields_bind_placeholder v).mono ?_
  rintro e ⟨text, rfl⟩
  exact plainWords_placeholder D text _

theorem yields_inListFilter_plain (operator : String) {f : Filter} (hf : PlainName f.field) :
    Yields (fun e => PlainWords (D.expr e)) (inListFilter cfg operator f) := by
  rw [inListFilter]
  split
  · split
    · exact yields_throw _ _
    · exact (yields_mapM (yields_bind_plain D) _).map fun es hes =>
        plainWords_inList D f.not (plainWords_idExpr D hf) hes
  · exact yields_throw _ _

theorem yields_filterExpr_plain {f : Filter} (hf : PlainName f.field) :
    Yields (fun e => PlainWords (D.expr e)) (filterExpr cfg f) := by
  obtain ⟨field, operator, value, negated⟩ := f
  have hid : PlainWords (D.expr (idExpr field)) := plainWords_idExpr D hf
  cases operator with
  | eq | ne | gt | gte | lt | lte =>
      exact (yields_bind_plain D value).map fun e he => plainWords_bin D hid he (by decide)
  | like =>
      exact (yields_bind_plain D value).map fun e he =>
        plainWords_like D negated hid he (plainWords_escapeChar D cfg.backend)
  | unsafeLike =>
      exact (yields_bind_plain D value).map fun e he => plainWords_like D negated hid he (by
        rw [D.escape_none]
        simp [PlainWords])
  | iLike =>
      cases hbackend : cfg.backend <;> simp only [filterExpr, hbackend]
      case postgres =>
        exact (yields_bind_plain D value).map fun e he =>
          plainWords_ilike D negated hid he (plainWords_backslash D)
      all_goals
        exact (yields_bind_plain D _).map fun e he => plainWords_like D false
          (plainWords_lowerExpr D hid) he (plainWords_escapeChar D _)
  | between =>
      cases value with
      | array arr =>
          rcases arr with _ | ⟨low, _ | ⟨high, _ | ⟨third, rest⟩⟩⟩
          · exact yields_throw _ _
          · exact yields_throw _ _
          · exact (yields_bind_plain D low).seq fun lowPh hlow =>
              (yields_bind_plain D high).map fun highPh hhigh =>
                plainWords_between D negated hid hlow hhigh
          · exact yields_throw _ _
      | _ => exact yields_throw _ _
  | isNull => exact yields_pure (plainWords_isNull D hid).1
  | isNotNull => exact yields_pure (plainWords_isNull D hid).2
  | «in» => exact yields_inListFilter_plain D "In" hf
  | notIn => exact yields_inListFilter_plain D "NotIn" hf
  | contains =>
      cases value with
      | string s =>
          exact (yields_bind_plain D _).map fun e he =>
            plainWords_like D negated hid he (plainWords_escapeChar D cfg.backend)
      | _ => exact yields_throw _ _

theorem yields_searchFieldExpr_plain (search : SearchParams) (pattern : String) {field : String}
    (hfield : PlainName field) :
    Yields (fun e => PlainWords (D.expr e)) (searchFieldExpr cfg search pattern field) := by
  have hid : PlainWords (D.expr (idExpr field)) := plainWords_idExpr D hfield
  cases hcase : search.caseSensitive <;> simp only [searchFieldExpr, hcase, if_true,
    Bool.false_eq_true, if_false]
  · exact (yields_bind_plain D _).map fun e he => plainWords_like D false
      (plainWords_lowerExpr D hid) (plainWords_lowerExpr D he) (plainWords_escapeChar D _)
  · exact (yields_bind_plain D _).map fun e he =>
      plainWords_like D false hid he (plainWords_escapeChar D _)

theorem yields_cursorCondition_plain (direction : CursorDirection) {sorts : List SortField}
    (hsorts : PlainFields sorts) (values : List FilterValue) :
    Yields (fun e => PlainWords (D.expr e))
      (buildCursorConditionRecursive cfg direction sorts values) := by
  induction sorts generalizing values with
  | nil => exact yields_throw _ _
  | cons sort sorts ih =>
      rcases values with _ | ⟨v, values⟩
      · exact yields_throw _ _
      have hid : PlainWords (D.expr (idExpr sort.field)) := plainWords_idExpr D (hsorts sort (by simp))
      have hsymbol : placeholderNumbers
          (" " ++ (cursorOperator direction sort.isAsc).symbol ++ " ").toList = [] := by
        cases direction <;> cases sort.isAsc <;> decide
      rcases sorts with _ | ⟨sort', sorts⟩
      · exact (yields_bind_plain D v).map fun value hvalue => plainWords_bin D hid hvalue hsymbol
      have hrest := ih (fun s hs => hsorts s (List.mem_cons_of_mem _ hs)) values
      refine (yields_bind_plain D v).seq fun value hvalue => hrest.seq fun rest hrest =>
        (yields_eqPlaceholder (yields_bind_plain D v) hvalue).map fun eqValue heqValue => ?_
      refine plainWords_bin D (plainWords_bin D hid hvalue hsymbol) (plainWords_nested D
        (plainWords_bin D (plainWords_bin D hid heqValue (by decide)) ?_ (by decide))) (by decide)
      split
      · exact hrest
      · exact plainWords_nested D hrest

/-- No condition of the request has a `$number` in its words. -/
structure DynamicParts.Plain (parts : DynamicParts) : Prop where
  filters : ∀ e ∈ parts.filters, PlainWords (D.expr e)
  search : ∀ e ∈ parts.search, PlainWords (D.expr e)
  cursor : ∀ e ∈ parts.cursor, PlainWords (D.expr e)

theorem yields_mapM_plain {γ : Type} {f : γ → BuildM Expr} {Q : γ → Prop} {xs : List γ}
    (hxs : ∀ x ∈ xs, Q x) (hf : ∀ x, Q x → Yields (fun e => PlainWords (D.expr e)) (f x)) :
    Yields (fun es => ∀ e ∈ es, PlainWords (D.expr e)) (xs.mapM f) := by
  refine (yields_mapM_of_forall (R := fun _ e => PlainWords (D.expr e)) hxs hf).mono
    fun es hall => ?_
  induction hall with
  | nil => simp
  | cons he _ ih => exact List.forall_mem_cons.mpr ⟨he, ih (List.forall_mem_cons.mp hxs).2⟩

theorem yields_dynamicParts_plain (h : PlainRequest params) :
    Yields (DynamicParts.Plain D) (dynamicParts cfg params) := by
  have hfilters : Yields (fun es => ∀ e ∈ es, PlainWords (D.expr e))
      (filterExprs cfg params.filters) := by
    cases hcase : params.filters with
    | none => exact yields_pure (by simp)
    | some filterParams =>
        exact yields_mapM_plain D (h.filters filterParams hcase) fun f hf =>
          yields_filterExpr_plain D hf
  have hsearch : Yields (fun es => ∀ e ∈ es, PlainWords (D.expr e))
      (searchCondition cfg params.search) := by
    cases hcase : params.search with
    | none => exact yields_pure (by simp)
    | some search =>
        simp only [searchCondition, searchExprs]
        split
        · exact yields_mapM_plain D (h.search search hcase) fun field hfield =>
            yields_searchFieldExpr_plain D search _ hfield
        · exact yields_pure (by simp)
  have hcursor : Yields (fun condition : Option Expr => ∀ e ∈ condition, PlainWords (D.expr e))
      (cursorCondition cfg params.sortBy params.pagination) := by
    rcases params.pagination with _ | _ | _ | cursor
    · exact yields_pure (by simp)
    · exact yields_pure (by simp)
    · exact yields_pure (by simp)
    · simp only [cursorCondition]
      split
      · exact yields_pure (by simp)
      · refine Yields.map (P := fun e => PlainWords (D.expr e)) ?_ fun e he => by simpa using he
        cases hcase : params.sortBy with
        | none =>
            unfold cursorExpr
            split <;> exact yields_throw _ _
        | some sortBy =>
            exact yields_cursorExpr_of fun direction _ _ =>
              yields_cursorCondition_plain D direction (h.sorts sortBy hcase) cursor.values
  exact hfilters.seq fun filters hf => hsearch.seq fun search hs => hcursor.map fun cursor hc =>
    ⟨hf, hs, hc⟩

theorem DynamicParts.Plain.combined {parts : DynamicParts} (h : parts.Plain D) :
    ∀ e ∈ parts.combined, PlainWords (D.expr e) := by
  refine plainWords_reduce D (fun l r hl hr => plainWords_bin D (plainWords_grouped D hl)
    (plainWords_grouped D hr) (by decide)) fun e he => ?_
  simp only [List.mem_append, Option.mem_toList] at he
  rcases he with (he | he) | he
  · exact plainWords_reduce D (fun l r hl hr => plainWords_bin D hl hr (by decide)) h.filters e he
  · exact plainWords_reduce D (fun l r hl hr => plainWords_bin D hl hr (by decide)) h.search e he
  · exact h.cursor e he

end Conditions

/-! ### Words of the statement -/

section Statement

variable (D : Display)

/-- The base statement without the clauses the request replaces. -/
def withoutReplaced (params : Params) (q : Query) : Query :=
  { q with
    orderBy := if replacesOrderBy params then none else q.orderBy
    limitClause := if replacesLimit params then none else q.limitClause }

/-- Nothing looks like a `$number` in what the request leaves of the base
statement and in its own field names. -/
structure PlainInput (params : Params) (q : Query) : Prop where
  base : PlainWords (D.query (withoutReplaced params q))
  request : PlainRequest params

theorem plainWords_withDynamicWhere {selection dynamicWhere : Option Expr}
    (hselection : ∀ e ∈ selection, PlainWords (D.expr e))
    (hdynamic : ∀ e ∈ dynamicWhere, PlainWords (D.expr e)) :
    ∀ e ∈ withDynamicWhere selection dynamicWhere, PlainWords (D.expr e) := by
  rcases selection with _ | existing <;> rcases dynamicWhere with _ | combined
  · exact hselection
  · exact hdynamic
  · exact hselection
  · rintro _ ⟨⟩
    exact plainWords_bin D (hselection existing rfl) (plainWords_grouped D (hdynamic combined rfl))
      (by decide)

theorem plainWords_elim {w : String} (hw : placeholderNumbers w.toList = []) (e : Option Expr) :
    PlainWords (e.elim [] fun e => .word w :: D.expr e) ↔ ∀ e' ∈ e, PlainWords (D.expr e') := by
  cases e with
  | none => simp [PlainWords]
  | some e =>
      simp only [Option.elim_some, plainWords_cons, Option.mem_def, Option.some.injEq, forall_eq']
      exact and_iff_right hw

theorem yields_processSelect_plain (h : PlainRequest params) {s : Select}
    (hs : PlainWords (D.setExpr (.select s))) :
    Yields (fun s' => PlainWords (D.setExpr (.select s'))) (processSelect cfg params s) := by
  refine (yields_dynamicParts_plain D h).map fun parts hparts => ?_
  rw [D.setExpr_select] at hs ⊢
  simp only [plainWords_append, plainWords_cons,
    plainWords_elim D (show placeholderNumbers " WHERE ".toList = [] by decide)] at hs ⊢
  obtain ⟨⟨⟨⟨hfrom, hselection⟩, hgroupBy⟩, hhaving⟩, hrest⟩ := hs
  exact ⟨⟨⟨⟨hfrom, plainWords_withDynamicWhere D hselection (hparts.combined D)⟩, hgroupBy⟩,
    hhaving⟩, hrest⟩

theorem yields_processSetExpr_plain (h : PlainRequest params) (e : SetExpr) :
    Yields (fun e' => PlainWords (D.setExpr e) → PlainWords (D.setExpr e'))
      (processSetExpr cfg params e) := by
  fun_induction processSetExpr cfg params e with
  | case1 s =>
      intro state e' state' hrun hs
      have hselect : Yields (fun e' => PlainWords (D.setExpr e'))
          (SetExpr.select <$> processSelect cfg params s) :=
        (yields_processSelect_plain D h hs).map fun s' hs' => hs'
      exact hselect state e' state' hrun
  | case2 op quantifier left right ihl ihr =>
      refine ihl.seq fun left' hl => ihr.map fun right' hr he => ?_
      rw [D.setExpr_setOperation] at he ⊢
      simp only [plainWords_append, plainWords_cons] at he ⊢
      exact ⟨hl he.1, he.2.1, hr he.2.2⟩
  | case3 ctes body order limit fetch rest ih =>
      refine ih.map fun body' hbody he => ?_
      rw [D.setExpr_query, D.query_eq] at he ⊢
      simp only [plainWords_append, plainWords_cons] at he ⊢
      obtain ⟨⟨hopen, ⟨⟨⟨⟨hwith, he⟩, horder⟩, hlimit⟩, hfetch⟩, hrest⟩, hclose⟩ := he
      exact ⟨⟨hopen, ⟨⟨⟨⟨hwith, hbody he⟩, horder⟩, hlimit⟩, hfetch⟩, hrest⟩, hclose⟩
  | case4 rows => exact yields_pure id
  | case5 name => exact yields_pure id
  | case6 form args => exact yields_pure id

theorem plainWords_orderByFor (h : PlainRequest params) {existing : Option OrderBy}
    (hexisting : PlainWords (D.orderBy (if replacesOrderBy params then none else existing))) :
    PlainWords (D.orderBy (orderByFor params existing)) := by
  rcases hsort : params.sortBy with _ | sortBy
  · simpa [orderByFor, replacesOrderBy, hsort] using hexisting
  · cases hsorts : sortBy.sorts.isEmpty with
    | true => simpa [orderByFor, replacesOrderBy, hsort, hsorts] using hexisting
    | false =>
        simp only [orderByFor, hsort, hsorts, Bool.not_false, if_true]
        exact plainWords_orderByOf D (h.sorts sortBy hsort) _

theorem plainWords_limitExprOf {limit : Option Expr} (h : limitExprOf cfg params = .ok limit) :
    ∀ e ∈ limit, PlainWords (D.expr e) := by
  rw [limitExprOf] at h
  split at h
  · obtain ⟨n, -, hn⟩ := exists_of_bind_eq_ok h
    obtain rfl := Except.ok.inj hn
    rintro _ ⟨⟩
    exact plainWords_numberExpr D _
  · obtain rfl := Except.ok.inj h
    rintro e ⟨⟩

theorem plainWords_offsetExprOf (params : Params) :
    PlainWords ((offsetExprOf params).elim [] fun o => .word " OFFSET " :: D.expr o.value) := by
  rw [offsetExprOf]
  cases params.offset with
  | none => simp [PlainWords]
  | some offset => exact plainWords_cons.mpr ⟨by decide, plainWords_numberExpr D _⟩

theorem plainWords_limitClauseOf {existing limitClause : Option LimitClause}
    (h : limitClauseOf cfg params existing = .ok limitClause)
    (hexisting : PlainWords (D.limitClause (if replacesLimit params then none else existing))) :
    PlainWords (D.limitClause limitClause) := by
  obtain ⟨limit, hlimit, h⟩ := exists_of_bind_eq_ok h
  have hsome := (limitExprOf_marks D hlimit).1
  have hoffset : (offsetExprOf params).isSome = params.offset.isSome := by simp [offsetExprOf]
  simp only [hsome, hoffset] at h
  split at h
  · obtain rfl := Except.ok.inj h
    obtain ⟨rest, hclause, hrest⟩ := D.limitClause_limitOffset limit (offsetExprOf params) []
    have hrows : ∀ o ∈ offsetExprOf params, o.rows = .none := by
      cases hoff : params.offset <;> simp [offsetExprOf, hoff]
    rw [hclause, hrest ⟨rfl, hrows⟩, List.append_nil]
    exact plainWords_append.mpr ⟨(plainWords_elim D (by decide) limit).mpr
      (plainWords_limitExprOf D hlimit), plainWords_offsetExprOf D params⟩
  · rename_i hreplaces
    obtain rfl := Except.ok.inj h
    rwa [replacesLimit, if_neg hreplaces] at hexisting

theorem plainWords_processQuery {q q' : Query} {binds binds' : List FilterValue} {maxExisting : ℕ}
    (h : processQuery cfg q params binds maxExisting = .ok (q', binds'))
    (hrequest : PlainRequest params) (hbase : PlainWords (D.query (withoutReplaced params q))) :
    PlainWords (D.query q') := by
  obtain ⟨n, -, h⟩ := exists_of_bind_eq_ok h
  obtain ⟨⟨body, state⟩, hbody, h⟩ := exists_of_bind_eq_ok h
  obtain ⟨limitClause, hlimit, h⟩ := exists_of_bind_eq_ok h
  obtain ⟨rfl, -⟩ := Prod.mk.inj (Except.ok.inj h)
  rw [D.query_eq] at hbase ⊢
  simp only [plainWords_append, withoutReplaced] at hbase ⊢
  obtain ⟨⟨⟨⟨⟨hwith, hsetExpr⟩, horder⟩, hlimitClause⟩, hfetch⟩, hrest⟩ := hbase
  have hprocessed := yields_processSetExpr_plain D hrequest q.body _ _ _ hbody hsetExpr
  exact ⟨⟨⟨⟨⟨hwith, hprocessed⟩, plainWords_orderByFor D hrequest horder⟩,
    plainWords_limitClauseOf D hlimit hlimitClause⟩, hfetch⟩, hrest⟩

theorem withoutReplaced_of_isEmpty (h : params.isEmpty) (q : Query) :
    withoutReplaced params q = q := by
  simp only [Params.isEmpty, Bool.and_eq_true, Option.isNone_iff_eq_none] at h
  obtain ⟨⟨⟨⟨⟨-, -⟩, hsort⟩, -⟩, hlimit⟩, hoffset⟩ := h
  obtain ⟨ctes, body, orderBy, limitClause, fetch, rest⟩ := q
  simp [withoutReplaced, replacesOrderBy, replacesLimit, hsort, hlimit, hoffset]

/-- The words of a built statement are those of the base statement and the
field names of the request: where these have no `$number`, it has none. -/
theorem PlainInput.statement {q : Query} {st : Statement} {binds binds' : List FilterValue}
    {maxExisting : ℕ} (hplain : PlainInput D params q)
    (h : dynamicStatement cfg (.query q) params binds maxExisting = .ok (st, binds')) :
    PlainWords (D.statement st) := by
  unfold dynamicStatement at h
  by_cases hempty : params.isEmpty
  · rw [if_pos hempty] at h
    obtain ⟨rfl, -⟩ := Prod.mk.inj (Except.ok.inj h)
    have hbase := hplain.base
    rwa [withoutReplaced_of_isEmpty hempty] at hbase
  · rw [if_neg hempty] at h
    obtain ⟨⟨q', values⟩, hquery, h⟩ := exists_of_bind_eq_ok h
    obtain ⟨rfl, -⟩ := Prod.mk.inj (Except.ok.inj h)
    exact plainWords_processQuery D hquery hplain.request hplain.base

end Statement

/-- A filter of the city names a plain field. -/
theorem Example.plainRequest_inBonn : PlainRequest Example.inBonn where
  filters := by
    rintro _ ⟨⟩
    decide
  search := by rintro _ ⟨⟩
  sorts := by rintro _ ⟨⟩

end SqlxData.Dynamic
