import SqlxData.Dynamic.ConditionWords

/-!
Grouping of the generated conditions: in a SELECT without WHERE, the text of
the WHERE is read as the conjunction of the filters, the disjunction of the
searched fields and the cursor predicate, whichever of them are there.
-/

namespace SqlxData.Dynamic

open SqlxData.Sqlparser BoolText ConditionText ThreeValued

variable {cfg : Config} {params : Params} {D : Display}

/-! ### What a request asks for -/

section Requested

variable (cfg)

/-- The predicate of a filter whose values stand under the placeholders. -/
def filterPredicate (filter : Filter) (placeholders : List Word) : Option Predicate :=
  let column : Operand := .word filter.field.toList
  let compare (op : String) (w : Word) : Predicate := .compare op.toList column (.word w)
  match filter.operator, placeholders with
  | .eq, [w] => some (compare "=" w)
  | .ne, [w] => some (compare "<>" w)
  | .gt, [w] => some (compare ">" w)
  | .gte, [w] => some (compare ">=" w)
  | .lt, [w] => some (compare "<" w)
  | .lte, [w] => some (compare "<=" w)
  | .like, [w] | .contains, [w] =>
      some (.like false filter.not column (.word w) (escapeOf (escapeChar cfg.backend)))
  | .unsafeLike, [w] => some (.like false filter.not column (.word w) none)
  | .iLike, [w] =>
      match cfg.backend with
      | .postgres => some (.like true filter.not column (.word w) (escapeOf (some backslash)))
      | backend => some (.like false false (.call "LOWER".toList filter.field.toList) (.word w)
          (escapeOf (escapeChar backend)))
  | .between, [low, high] => some (.between filter.not column (.word low) (.word high))
  | .isNull, [] => some (.isNull false column)
  | .isNotNull, [] => some (.isNull true column)
  | .in, w :: ws | .notIn, w :: ws => some (.inList filter.not column w ws)
  | _, _ => none

def FilterPredicate (filter : Filter) (p : Predicate) : Prop :=
  ∃ placeholders, (∀ w ∈ placeholders, IsPlaceholder w) ∧
    filterPredicate cfg filter placeholders = some p

/-- The predicate of a searched field. -/
def searchPredicate (search : SearchParams) (field : String) (w : Word) : Predicate :=
  if search.caseSensitive then
    .like false false (.word field.toList) (.word w) (escapeOf (escapeChar cfg.backend))
  else
    .like false false (.call "LOWER".toList field.toList) (.call "LOWER".toList w)
      (escapeOf (escapeChar cfg.backend))

def SearchPredicate (search : SearchParams) (field : String) (p : Predicate) : Prop :=
  ∃ w, IsPlaceholder w ∧ p = searchPredicate cfg search field w

end Requested

/-- The comparison of a sort column with a cursor value. -/
def cursorComparison (direction : CursorDirection) (sort : SortField) (w : Word) :
    Formula Predicate :=
  .operand (.compare (cursorOperator direction sort.isAsc).symbol.toList (.word sort.field.toList)
    (.word w))

/-- The cursor predicate over the sort columns: behind the cursor in the first
column, or equal to it there and behind it in the others. -/
def CursorFormula (direction : CursorDirection) : List SortField → Formula Predicate → Prop
  | [], _ => False
  | [sort], f => ∃ w, IsPlaceholder w ∧ f = cursorComparison direction sort w
  | sort :: sort' :: sorts, f =>
      ∃ w w' rest, IsPlaceholder w ∧ IsPlaceholder w' ∧
        CursorFormula direction (sort' :: sorts) rest ∧
        f = .or (cursorComparison direction sort w)
          (.paren (.and
            (.operand (.compare "=".toList (.word sort.field.toList) (.word w')))
            (if sorts.isEmpty then rest else .paren rest)))

/-- The filters of a request. -/
def filtersOf (params : Params) : List Filter := params.filters.elim [] (·.filters)

/-- The fields a request searches, each with its search. -/
def searchedOf (params : Params) : List (SearchParams × String) :=
  params.search.elim [] fun search => search.activeFields.map (search, ·)

/-- The cursor of a request that is not on its first page. -/
def cursorOf (params : Params) : Option CursorParams :=
  match params.pagination with
  | some (.cursor cursor) => if cursor.isEmpty then none else some cursor
  | _ => none

/-- The columns of a request have plain or dotted names. -/
structure ColumnNames (params : Params) : Prop where
  filters : ∀ filter ∈ filtersOf params, ColumnName filter.field
  search : ∀ searched ∈ searchedOf params, ColumnName searched.2
  sorts : ∀ sorting ∈ params.sortBy, ∀ sort ∈ sorting.sorts, ColumnName sort.field

/-! ### What the builder makes -/

/-- A generated placeholder. -/
def IsBound (e : Expr) : Prop :=
  ∃ text v, (text = "?" ∨ ∃ n : UInt8, text = "$" ++ toString n.toNat) ∧
    e = valueExpr (.placeholder text (.pushed v))

theorem yields_bind_bound (v : FilterValue) : Yields IsBound (bind cfg v) := by
  intro s e s' hrun
  obtain ⟨text, rfl⟩ := yields_bind_placeholder v s e s' hrun
  refine ⟨text, v, ?_, rfl⟩
  have hbind : (bind cfg v).run s = (nextPlaceholder cfg s.n).bind fun p =>
      .ok (valueExpr (.placeholder p.1 (.pushed v)), ⟨s.bindValues ++ [v], p.2⟩) := rfl
  rw [hbind] at hrun
  cases hbackend : cfg.backend with
  | mysql =>
      rw [nextPlaceholder, hbackend] at hrun
      cases hrun
      exact .inl rfl
  | sqlite | postgres =>
      rw [nextPlaceholder, hbackend] at hrun
      cases hnext : addU8 cfg s.n 1 with
      | error err =>
          simp only [hnext] at hrun
          cases hrun
      | ok n =>
          simp only [hnext] at hrun
          cases hrun
          exact .inr ⟨s.n, rfl⟩

section Bound

variable {e : Expr} (h : IsBound e)
include h

theorem IsBound.isWord : IsWord e := by
  obtain ⟨text, v, htext, rfl⟩ := h
  exact .placeholder v htext

theorem IsBound.isPlaceholder (numbering : Option (ℕ → ℕ)) :
    IsPlaceholder (wordOf numbering e) := by
  obtain ⟨text, v, htext, rfl⟩ := h
  exact isPlaceholder_tokenText numbering _ htext

theorem IsBound.operandOf (numbering : Option (ℕ → ℕ)) :
    operandOf numbering e = .word (wordOf numbering e) := h.isWord.operandOf numbering

end Bound

theorem escapeChar_eq (backend : Backend) :
    escapeChar backend = none ∨ escapeChar backend = some backslash := by
  cases backend <;> simp [escapeChar]

/-- The condition is written as a predicate that is as requested. -/
def WrittenAs (requested : Predicate → Prop) (e : Expr) : Prop :=
  IsPredicate e ∧ ∀ numbering, requested (predicateOf numbering e)

/-- A comparison of the column with one placeholder. -/
theorem writtenAs_one {filter : Filter} {e v : Expr} (hv : IsBound v) (he : IsPredicate e)
    (h : ∀ numbering, filterPredicate cfg filter [wordOf numbering v] =
      some (predicateOf numbering e)) : WrittenAs (FilterPredicate cfg filter) e :=
  ⟨he, fun numbering => ⟨[wordOf numbering v],
    List.forall_mem_singleton.mpr (hv.isPlaceholder numbering), h numbering⟩⟩

theorem yields_mapM_bound (v : FilterValue) (vs : List FilterValue) :
    Yields (fun es => ∃ e es', es = e :: es' ∧ ∀ e' ∈ e :: es', IsBound e')
      ((v :: vs).mapM (bind cfg)) := by
  rw [List.mapM_cons]
  exact (yields_bind_bound v).seq fun e he => (yields_mapM yields_bind_bound vs).map fun es hes =>
    ⟨e, es, rfl, List.forall_mem_cons.mpr ⟨he, hes⟩⟩

theorem yields_inListFilter_written {operator : String} {filter : Filter}
    (hname : ColumnName filter.field) (hin : filter.operator = .in ∨ filter.operator = .notIn) :
    Yields (WrittenAs (FilterPredicate cfg filter)) (inListFilter cfg operator filter) := by
  rw [inListFilter]
  split
  · rename_i arr hvalue
    split
    · exact yields_throw _ _
    rename_i hne
    rcases arr with _ | ⟨v, vs⟩
    · simp at hne
    refine (yields_mapM_bound v vs).map ?_
    rintro _ ⟨e, es, rfl, hbound⟩
    obtain ⟨he, hes⟩ := List.forall_mem_cons.mp hbound
    refine ⟨.inList _ (.word (.column hname)) he.isWord fun e he => (hes e he).isWord,
      fun numbering => ⟨(e :: es).map (wordOf numbering), ?_, ?_⟩⟩
    · exact List.forall_mem_map.mpr fun e he => (hbound e he).isPlaceholder numbering
    · rcases hin with hin | hin <;> simp only [filterPredicate, hin, List.map_cons] <;> rfl
  · exact yields_throw _ _

/-- A filter is written as its predicate. -/
theorem yields_filterExpr_written {filter : Filter} (hname : ColumnName filter.field) :
    Yields (WrittenAs (FilterPredicate cfg filter)) (filterExpr cfg filter) := by
  have hcolumn : IsSimple (idExpr filter.field) := .word (.column hname)
  have hone {v : FilterValue} {g : Expr → Expr} (hpredicate : ∀ e, IsBound e → IsPredicate (g e))
      (h : ∀ e, IsBound e → ∀ numbering, filterPredicate cfg filter [wordOf numbering e] =
        some (predicateOf numbering (g e))) :
      Yields (WrittenAs (FilterPredicate cfg filter)) (bind cfg v >>= fun e => pure (g e)) :=
    (yields_bind_bound v).map fun e he => writtenAs_one he (hpredicate e he) (h e he)
  have hescape := escapeChar_eq cfg.backend
  obtain ⟨field, operator, value, negated⟩ := filter
  cases operator with
  | eq | ne | gt | gte | lt | lte =>
      refine hone (fun e he => .compare (by decide) hcolumn (.word he.isWord)) fun e he numbering => ?_
      simp only [filterPredicate, predicateOf, he.operandOf, bin, eq, ne, gt, gte, lt, lte]
      rfl
  | like =>
      refine hone (fun e he => .like _ hcolumn (.word he.isWord) hescape) fun e he numbering => ?_
      simp only [filterPredicate, predicateOf, he.operandOf, like]
      rfl
  | unsafeLike =>
      refine hone (fun e he => .like _ hcolumn (.word he.isWord) (.inl rfl)) fun e he numbering => ?_
      simp only [filterPredicate, predicateOf, he.operandOf, unsafeLike]
      rfl
  | iLike =>
      cases hbackend : cfg.backend with
      | postgres =>
          simp only [filterExpr, hbackend]
          refine hone (fun e he => .ilike _ hcolumn (.word he.isWord) (.inr rfl))
            fun e he numbering => ?_
          simp only [filterPredicate, hbackend, predicateOf, he.operandOf, ilike]
          rfl
      | sqlite | mysql =>
          rw [hbackend] at hescape
          simp only [filterExpr, hbackend]
          refine hone (fun e he => .like _ (.lower (.column hname)) (.word he.isWord) hescape)
            fun e he numbering => ?_
          simp only [filterPredicate, hbackend, predicateOf, he.operandOf, likeExpr]
          rfl
  | between =>
      cases value with
      | array arr =>
          rcases arr with _ | ⟨low, _ | ⟨high, _ | ⟨third, rest⟩⟩⟩
          · exact yields_throw _ _
          · exact yields_throw _ _
          · refine (yields_bind_bound low).seq fun lowPh hlow => (yields_bind_bound high).map
              fun highPh hhigh => ⟨.between _ hcolumn (.word hlow.isWord) (.word hhigh.isWord),
                fun numbering => ⟨[wordOf numbering lowPh, wordOf numbering highPh], ?_, ?_⟩⟩
            · exact List.forall_mem_cons.mpr ⟨hlow.isPlaceholder numbering,
                List.forall_mem_singleton.mpr (hhigh.isPlaceholder numbering)⟩
            · simp only [filterPredicate, predicateOf, hlow.operandOf, hhigh.operandOf, between]
              rfl
          · exact yields_throw _ _
      | _ => exact yields_throw _ _
  | isNull =>
      exact yields_pure ⟨.isNull hcolumn, fun numbering => ⟨[], by simp, rfl⟩⟩
  | isNotNull =>
      exact yields_pure ⟨.isNotNull hcolumn, fun numbering => ⟨[], by simp, rfl⟩⟩
  | «in» => exact yields_inListFilter_written hname (.inl rfl)
  | notIn => exact yields_inListFilter_written hname (.inr rfl)
  | contains =>
      cases value with
      | string s =>
          refine hone (fun e he => .like _ hcolumn (.word he.isWord) hescape)
            fun e he numbering => ?_
          simp only [filterPredicate, predicateOf, he.operandOf, like]
          rfl
      | _ => exact yields_throw _ _

/-- A searched field is written as its predicate. -/
theorem yields_searchFieldExpr_written (search : SearchParams) (pattern : String) {field : String}
    (hname : ColumnName field) :
    Yields (WrittenAs (SearchPredicate cfg search field))
      (searchFieldExpr cfg search pattern field) := by
  have hescape := escapeChar_eq cfg.backend
  refine (yields_bind_bound (.string pattern)).seq fun e he => ?_
  cases hcase : search.caseSensitive with
  | true =>
      refine yields_pure ⟨.like _ (.word (.column hname)) (.word he.isWord) hescape,
        fun numbering => ⟨wordOf numbering e, he.isPlaceholder numbering, ?_⟩⟩
      simp only [searchPredicate, hcase, predicateOf, like, he.operandOf]
      rfl
  | false =>
      refine yields_pure ⟨.like _ (.lower (.column hname)) (.lower he.isWord) hescape,
        fun numbering => ⟨wordOf numbering e, he.isPlaceholder numbering, ?_⟩⟩
      simp only [searchPredicate, hcase, predicateOf, likeExpr]
      rfl

/-- The cursor condition is written as the cursor predicate. -/
theorem yields_cursorCondition_written (direction : CursorDirection) {sorts : List SortField}
    (values : List FilterValue) (hnames : ∀ sort ∈ sorts, ColumnName sort.field) :
    Yields (fun e => IsCondition e ∧
        ∀ numbering, CursorFormula direction sorts (formulaOf numbering e))
      (buildCursorConditionRecursive cfg direction sorts values) := by
  have hcomparison {sort : SortField} (hname : ColumnName sort.field) {e : Expr} (he : IsBound e) :
      IsPredicate (bin (cursorOperator direction sort.isAsc) (idExpr sort.field) e) ∧
        ∀ numbering, formulaOf numbering
          (bin (cursorOperator direction sort.isAsc) (idExpr sort.field) e) =
            cursorComparison direction sort (wordOf numbering e) := by
    have hpredicate : IsPredicate (bin (cursorOperator direction sort.isAsc) (idExpr sort.field) e) :=
      .compare (by cases direction <;> cases sort.isAsc <;> decide) (.word (.column hname))
        (.word he.isWord)
    refine ⟨hpredicate, fun numbering => ?_⟩
    rw [formulaOf, hpredicate.skeleton, Formula.map, bin, predicateOf, he.operandOf]
    rfl
  induction sorts generalizing values with
  | nil => exact yields_throw _ _
  | cons sort sorts ih =>
      rcases values with _ | ⟨v, values⟩
      · exact yields_throw _ _
      obtain ⟨hname, hnames⟩ := List.forall_mem_cons.mp hnames
      rcases sorts with _ | ⟨sort', sorts⟩
      · refine (yields_bind_bound v).map fun value hvalue => ?_
        obtain ⟨hpredicate, hformula⟩ := hcomparison hname hvalue
        exact ⟨hpredicate.isCondition, fun numbering =>
          ⟨wordOf numbering value, hvalue.isPlaceholder numbering, hformula numbering⟩⟩
      refine (yields_bind_bound v).seq fun value hvalue => (ih values hnames).seq fun rest hrest =>
        (yields_eqPlaceholder (yields_bind_bound v) hvalue).map fun eqValue heqValue => ?_
      obtain ⟨hpredicate, hformula⟩ := hcomparison hname hvalue
      have hequal : IsPredicate (bin .eq (idExpr sort.field) eqValue) :=
        .compare (by decide) (.word (.column hname)) (.word heqValue.isWord)
      obtain ⟨hrestCondition, hrestFormula⟩ := hrest
      have hwrapped : IsCondition (if sorts.isEmpty then rest else .nested rest) ∧
          ∀ numbering, formulaOf numbering (if sorts.isEmpty then rest else .nested rest) =
            if sorts.isEmpty then formulaOf numbering rest
            else .paren (formulaOf numbering rest) := by
        cases sorts.isEmpty with
        | true => exact ⟨hrestCondition, fun _ => rfl⟩
        | false => exact ⟨hrestCondition, fun _ => rfl⟩
      refine ⟨hpredicate.isCondition.or (hequal.isCondition.and hwrapped.1), fun numbering =>
        ⟨wordOf numbering value, wordOf numbering eqValue, formulaOf numbering rest,
          hvalue.isPlaceholder numbering, heqValue.isPlaceholder numbering,
          hrestFormula numbering, ?_⟩⟩
      rw [← hformula numbering, ← hwrapped.2 numbering, ← heqValue.operandOf]
      rfl

/-! ### The parts of a WHERE -/

/-- The parts are written as the request asks for them. -/
structure DynamicParts.Requested (cfg : Config) (params : Params) (parts : DynamicParts) :
    Prop where
  filters : List.Forall₂ (fun filter => WrittenAs (FilterPredicate cfg filter)) (filtersOf params)
    parts.filters
  search : List.Forall₂ (fun searched => WrittenAs (SearchPredicate cfg searched.1 searched.2))
    (searchedOf params) parts.search
  cursor : match cursorOf params with
    | none => parts.cursor = none
    | some cursor => ∃ direction sorting e, cursor.direction = some direction ∧
        params.sortBy = some sorting ∧ parts.cursor = some e ∧ IsCondition e ∧
        ∀ numbering, CursorFormula direction sorting.sorts (formulaOf numbering e)

theorem yields_dynamicParts_requested (hnames : ColumnNames params) :
    Yields (DynamicParts.Requested cfg params) (dynamicParts cfg params) := by
  have hfilters : Yields (fun es => List.Forall₂
      (fun filter => WrittenAs (FilterPredicate cfg filter)) (filtersOf params) es)
      (filterExprs cfg params.filters) := by
    have hnames := hnames.filters
    unfold filtersOf at hnames ⊢
    cases hcase : params.filters with
    | none => exact yields_pure .nil
    | some filterParams =>
        rw [hcase] at hnames
        exact yields_mapM_of_forall hnames fun _ hname => yields_filterExpr_written hname
  have hsearch : Yields (fun es => List.Forall₂
      (fun searched => WrittenAs (SearchPredicate cfg searched.1 searched.2)) (searchedOf params) es)
      (searchCondition cfg params.search) := by
    have hnames := hnames.search
    unfold searchedOf at hnames ⊢
    cases hcase : params.search with
    | none => exact yields_pure .nil
    | some search =>
        rw [hcase] at hnames
        simp only [Option.elim_some, List.forall_mem_map, List.forall₂_map_left_iff] at hnames ⊢
        rw [searchCondition, searchExprs]
        unfold SearchParams.activeFields at hnames ⊢
        cases hactive : !search.fields.isEmpty && !search.query.isEmpty with
        | false =>
            simp only [Bool.false_eq_true, if_false]
            exact yields_pure .nil
        | true =>
            simp only [hactive, if_true] at hnames ⊢
            exact yields_mapM_of_forall hnames fun _ hname =>
              yields_searchFieldExpr_written search _ hname
  have hcursor : Yields (fun condition : Option Expr => match cursorOf params with
      | none => condition = none
      | some cursor => ∃ direction sorting e, cursor.direction = some direction ∧
          params.sortBy = some sorting ∧ condition = some e ∧ IsCondition e ∧
          ∀ numbering, CursorFormula direction sorting.sorts (formulaOf numbering e))
      (cursorCondition cfg params.sortBy params.pagination) := by
    unfold cursorOf
    rcases params.pagination with _ | _ | _ | cursor
    · exact yields_pure rfl
    · exact yields_pure rfl
    · exact yields_pure rfl
    simp only [cursorCondition]
    cases cursor.isEmpty with
    | true => exact yields_pure rfl
    | false =>
        simp only [Bool.false_eq_true, if_false]
        cases hsortBy : params.sortBy with
        | none =>
            unfold cursorExpr
            split
            · exact yields_throw _ _
            · exact yields_throw _ _
        | some sorting =>
            refine (yields_cursorExpr_of (P := fun e => ∃ direction,
              cursor.direction = some direction ∧ IsCondition e ∧
                ∀ numbering, CursorFormula direction sorting.sorts (formulaOf numbering e))
              fun direction hdirection _ s e s' hrun => ⟨direction, hdirection, ?_⟩).map ?_
            · exact yields_cursorCondition_written direction cursor.values
                (hnames.sorts sorting hsortBy) s e s' hrun
            · rintro e ⟨direction, hdirection, hcondition, hformula⟩
              exact ⟨direction, sorting, e, hdirection, rfl, rfl, hcondition, hformula⟩
  exact hfilters.seq fun filters hf => hsearch.seq fun search hs => hcursor.map fun cursor hc =>
    ⟨hf, hs, hc⟩

/-! ### The intended predicate -/

/-- The cursor predicate a request asks for. -/
def CursorPart (params : Params) (cursor : Option (Formula Predicate)) : Prop :=
  match cursorOf params with
  | none => cursor = none
  | some c => ∃ direction sorting f, c.direction = some direction ∧
      params.sortBy = some sorting ∧ cursor = some f ∧ CursorFormula direction sorting.sorts f

/-- `(filter AND … AND filter) AND (search OR … OR search) AND cursor`, without
the parts that are absent. -/
def dynamicPredicate (filters search : List Predicate) (cursor : Option (Formula Predicate)) :
    Option (Formula Predicate) :=
  Formula.all ((Formula.all (filters.map .operand)).toList ++
    (Formula.any (search.map .operand)).toList ++ cursor.toList)

/-- The WHERE is absent with all parts, and otherwise its text is read as a
formula that is equivalent to the intended predicate. -/
def WhereGrouped (cfg : Config) (D : Display) (params : Params) (numbering : Option (ℕ → ℕ))
    (selection : Option Expr) : Prop :=
  (selection = none ↔
    filtersOf params = [] ∧ searchedOf params = [] ∧ cursorOf params = none) ∧
  ∀ e ∈ selection, ∃ filters search cursor f g,
    List.Forall₂ (FilterPredicate cfg) (filtersOf params) filters ∧
    List.Forall₂ (fun searched => SearchPredicate cfg searched.1 searched.2) (searchedOf params)
      search ∧
    CursorPart params cursor ∧
    readCondition (tokensText numbering (D.expr e)) = some f ∧
    dynamicPredicate filters search cursor = some g ∧
    ∀ value, f.eval value = g.eval value

theorem DynamicParts.combined_eq_none_iff (parts : DynamicParts) :
    parts.combined = none ↔ parts.filters = [] ∧ parts.search = [] ∧ parts.cursor = none := by
  have hnil : ∀ (op : Expr → Expr → Expr) (l : List Expr), reduce op l = none ↔ l = [] := by
    intro op l
    cases l <;> simp [reduce]
  rw [DynamicParts.combined, hnil, List.append_eq_nil_iff, List.append_eq_nil_iff,
    Option.toList_eq_nil_iff, Option.toList_eq_nil_iff, Option.toList_eq_nil_iff, hnil, hnil,
    and_assoc]

/-- A list of written operands as predicates. -/
theorem map_formulaOf_of_forall₂ {α : Type} {R : α → Predicate → Prop} {xs : List α}
    {es : List Expr} (h : List.Forall₂ (fun x => WrittenAs (R x)) xs es)
    (numbering : Option (ℕ → ℕ)) :
    List.Forall₂ R xs (es.map (predicateOf numbering)) ∧
      (es.map Expr.skeleton).map (Formula.map (predicateOf numbering)) =
        (es.map (predicateOf numbering)).map .operand ∧ ∀ e ∈ es, IsCondition e := by
  induction h with
  | nil => exact ⟨.nil, rfl, by simp⟩
  | cons he _ ih =>
      obtain ⟨hpredicates, hmap, hconditions⟩ := ih
      refine ⟨.cons (he.2 numbering) hpredicates, ?_,
        List.forall_mem_cons.mpr ⟨he.1.isCondition, hconditions⟩⟩
      rw [List.map_cons, List.map_cons, List.map_cons, List.map_cons, hmap, he.1.skeleton]
      rfl

theorem DynamicParts.Requested.cursorPart {parts : DynamicParts}
    (h : parts.Requested cfg params) (numbering : Option (ℕ → ℕ)) :
    CursorPart params (parts.cursor.map (formulaOf numbering)) ∧
      (parts.cursor = none ↔ cursorOf params = none) ∧ ∀ e ∈ parts.cursor, IsCondition e := by
  have hcursor := h.cursor
  unfold CursorPart
  cases hcase : cursorOf params with
  | none =>
      simp only [hcase] at hcursor ⊢
      simp [hcursor]
  | some cursor =>
      simp only [hcase] at hcursor ⊢
      obtain ⟨direction, sorting, e, hdirection, hsorting, he, hcondition, hformula⟩ := hcursor
      rw [he]
      exact ⟨⟨direction, sorting, _, hdirection, hsorting, rfl, hformula numbering⟩, by simp,
        by simpa using hcondition⟩

/-- The WHERE of a SELECT that had none. -/
theorem DynamicParts.Requested.whereGrouped {parts : DynamicParts}
    (h : parts.Requested cfg params) (hshape : parts.WellShaped) (D : Display)
    (numbering : Option (ℕ → ℕ)) : WhereGrouped cfg D params numbering parts.combined := by
  obtain ⟨hfilters, hfiltersMap, hfiltersCondition⟩ := map_formulaOf_of_forall₂ h.filters numbering
  obtain ⟨hsearch, hsearchMap, hsearchCondition⟩ := map_formulaOf_of_forall₂ h.search numbering
  obtain ⟨hcursor, hcursorNone, hcursorCondition⟩ := h.cursorPart numbering
  refine ⟨?_, fun e he => ?_⟩
  · have hnil {α : Type} {R : α → Expr → Prop} {xs : List α} {es : List Expr}
        (h : List.Forall₂ R xs es) : es = [] ↔ xs = [] := by
      rw [← List.length_eq_zero_iff, ← h.length_eq, List.length_eq_zero_iff]
    rw [parts.combined_eq_none_iff, hnil h.filters, hnil h.search, hcursorNone]
  · have hcondition : IsCondition e := by
      refine isCondition_reduce (fun _ _ h h' => h.grouped.and h'.grouped) ?_ e he
      refine List.forall_mem_append.mpr ⟨List.forall_mem_append.mpr ⟨?_, ?_⟩, ?_⟩
      · simpa using isCondition_reduce (fun _ _ => IsCondition.and) hfiltersCondition
      · simpa using isCondition_reduce (fun _ _ => IsCondition.or) hsearchCondition
      · simpa using hcursorCondition
    have heval := parts.eval_combined
    rw [he] at heval
    have hmap : dynamicPredicate (parts.filters.map (predicateOf numbering))
        (parts.search.map (predicateOf numbering)) (parts.cursor.map (formulaOf numbering)) =
          (Formula.all ((Formula.all (parts.filters.map Expr.skeleton)).toList ++
            (Formula.any (parts.search.map Expr.skeleton)).toList ++
            (parts.cursor.map Expr.skeleton).toList)).map (Formula.map (predicateOf numbering)) := by
      rw [dynamicPredicate, ← hfiltersMap, ← hsearchMap, ← Formula.map_all, ← Formula.map_any,
        Formula.map_all _ (_ ++ _)]
      simp only [List.map_append, Option.toList_map, List.map_map]
      rfl
    cases hjoined : Formula.all ((Formula.all (parts.filters.map Expr.skeleton)).toList ++
        (Formula.any (parts.search.map Expr.skeleton)).toList ++
        (parts.cursor.map Expr.skeleton).toList) with
    | none =>
        have := heval fun _ => .unknown
        rw [hjoined] at this
        cases this
    | some g =>
        rw [hjoined] at hmap
        refine ⟨_, _, _, formulaOf numbering e, g.map (predicateOf numbering), hfilters, hsearch,
          hcursor, hcondition.readCondition numbering (hshape.canonical he) D, hmap,
          fun value => ?_⟩
        have hvalue := heval fun a => value (predicateOf numbering a)
        rw [hjoined] at hvalue
        rw [formulaOf, Formula.eval_map, Formula.eval_map]
        exact Option.some.inj hvalue

/-! ### The built statement -/

/-- A build prints the base query, with the generated conditions in its
SELECTs if there is a request. -/
theorem exists_extended_of_build {parser : Core.Parser} {baseSql : List Char} {q : Query}
    {initialBinds : List FilterValue} {built : BuiltSql}
    (hparse : Core.parseSql parser baseSql = .ok (some (.query q)))
    (hbuild : buildDynamicSql cfg D parser baseSql params initialBinds = .ok built) :
    ∃ q', PrintedFrom D q' built.sql ∧
      List.Forall₂ (Extended cfg params) (selects q.body) (selects q'.body) := by
  cases hparams : params.isEmpty with
  | false =>
      obtain ⟨q', hsql, hselects, -⟩ := exists_extended hparse hparams hbuild
      exact ⟨q', hsql, hselects⟩
  | true =>
      unfold buildDynamicSql at hbuild
      simp only [hparse, Except.mapError, Bind.bind, Except.bind] at hbuild
      generalize hbase : baseBinds baseSql (.query q) params initialBinds = base at hbuild
      obtain ⟨binds, numbers⟩ := base
      simp only [dynamicStatement, hparams, if_true, Except.ok.injEq] at hbuild
      refine ⟨q, ⟨binds, numbers, maxPlaceholder numbers, by rw [← hbuild]; rfl⟩, ?_⟩
      simp only [Params.isEmpty, Bool.and_eq_true, Option.isNone_iff_eq_none] at hparams
      obtain ⟨⟨⟨⟨⟨hfilters, hsearch⟩, hsortBy⟩, hpagination⟩, hlimit⟩, hoffset⟩ := hparams
      have hnothing : GeneratedParts cfg params ⟨[], [], none⟩ := by
        refine ⟨⟨[], 0⟩, ⟨[], 0⟩, ?_⟩
        rw [dynamicParts, hfilters, hsearch, hpagination]
        rfl
      refine List.forall₂_same.mpr fun s _ => ⟨⟨[], [], none⟩, hnothing, ?_⟩
      cases s
      rfl

/-- In the built text, the WHERE of every SELECT that had none is read with SQL
precedence as `(filter AND … AND filter) AND (search OR … OR search) AND
cursor` without the parts that are absent, and there is no WHERE when all parts
are. -/
theorem dynamic_where_grouped {parser : Core.Parser} {baseSql : List Char} {q : Query}
    {initialBinds : List FilterValue} {built : BuiltSql}
    (hparse : Core.parseSql parser baseSql = .ok (some (.query q)))
    (hnames : ColumnNames params)
    (hbuild : buildDynamicSql cfg D parser baseSql params initialBinds = .ok built) :
    ∃ q' numbering, built.sql = tokensText numbering (D.query q') ∧
      List.Forall₂ (fun s s' => s.selection = none →
        ∃ selection, s' = { s with selection := selection } ∧
          WhereGrouped cfg D params numbering selection) (selects q.body) (selects q'.body) := by
  obtain ⟨q', ⟨binds, numbers, maxExisting, hsql⟩, hselects⟩ :=
    exists_extended_of_build hparse hbuild
  obtain ⟨numbering, hnumbering⟩ :=
    exists_numbering binds numbers maxExisting (D.separated q')
  refine ⟨q', numbering, hsql.trans hnumbering, hselects.imp ?_⟩
  rintro s s' ⟨parts, ⟨st, st', hrun⟩, rfl⟩ hnone
  refine ⟨parts.combined, ?_, ?_⟩
  · rw [hnone]
    cases parts.combined <;> rfl
  · exact (yields_dynamicParts_requested hnames st parts st' hrun).whereGrouped
      (yields_dynamicParts st parts st' hrun) D numbering

/-! ### A filter and a search -/

namespace GroupingExample

open Reference

def users : Query := simpleQuery (.select (simpleSelect [.wildcard] "users" none))

/-- Between 18 and 65, with `Ann` in the name or in the e-mail address. -/
def request : Params :=
  { Params.default with
    filters := some ⟨[⟨"age", .between, .array [.int 18, .int 65], false⟩]⟩
    search := some ⟨"Ann", ["name", "u.email"], true, false⟩ }

def sql : String :=
  "SELECT * FROM users WHERE age BETWEEN $1 AND $2 AND (name LIKE $3 ESCAPE '\\' OR " ++
    "u.email LIKE $4 ESCAPE '\\')"

end GroupingExample

open GroupingExample Example Reference

theorem dynamic_where_grouped_users :
    ∃ q' numbering, sql.toList = tokensText numbering (Display.reference.query q') ∧
      List.Forall₂ (fun s s' => s.selection = none →
        ∃ selection, s' = { s with selection := selection } ∧
          WhereGrouped (build .sqlite) Display.reference request numbering selection)
        (selects users.body) (selects q'.body) :=
  @dynamic_where_grouped (build .sqlite) request Display.reference (parserOf users) (text users) users
    [] ⟨sql.toList, [.int 18, .int 65, .string "%Ann%", .string "%Ann%"]⟩ rfl
    ⟨by decide, by decide, nofun⟩ rfl

end SqlxData.Dynamic
