import SqlxData.Dynamic.WhereText

/-!
What filters and a search say about a row, in three-valued logic and on the
values of its columns, and that the generated conditions say the same whatever
placeholders they are written with.
-/

namespace SqlxData

open Sqlparser ThreeValued

/-- What a server makes of bound values and of the tests the builder writes,
on values that are not NULL. -/
structure Comparisons (V : Type) where
  bound : FilterValue → Option V
  lower : V → V
  compare : BinaryOperator → V → V → Bool
  like : Option Value → V → V → Bool
  ilike : Option Value → V → V → Bool

namespace Comparisons

variable {V : Type} (C : Comparisons V)

def negateIf (negated : Bool) (t : Truth) : Truth := if negated then t.not else t

def anyOf (ts : List Truth) : Truth := ts.foldr Truth.or .fails

def test (op : BinaryOperator) (a b : Option V) : Truth := Truth.lift₂ (C.compare op) a b

def inRange (a low high : Option V) : Truth := (C.test .gtEq a low).and (C.test .ltEq a high)

def isComparison : BinaryOperator → Bool
  | .eq | .notEq | .gt | .lt | .gtEq | .ltEq => true
  | _ => false

/-- The truth of an operand over the values of scalar expressions; `other` is
that of the operands the builder does not write. -/
def operandTruth (value : Expr → Option V) (other : Expr → Truth) : Expr → Truth
  | .binaryOp left op right =>
      if isComparison op then C.test op (value left) (value right)
      else other (.binaryOp left op right)
  | .isNull e => .ofBool (value e).isNone
  | .isNotNull e => .ofBool (value e).isSome
  | .inList e list negated =>
      negateIf negated (anyOf (list.map fun x => C.test .eq (value e) (value x)))
  | .between e negated low high => negateIf negated (C.inRange (value e) (value low) (value high))
  | .like negated e pattern escapeChar =>
      negateIf negated (Truth.lift₂ (C.like escapeChar) (value e) (value pattern))
  | .ilike negated e pattern escapeChar =>
      negateIf negated (Truth.lift₂ (C.ilike escapeChar) (value e) (value pattern))
  | e => other e

/-- Scalars are read as the builder means them: a generated placeholder has
the value it was pushed with, and `LOWER` is the server's. -/
structure Reads (value : Expr → Option V) : Prop where
  placeholder : ∀ text v, value (.value (.placeholder text (.pushed v))) = C.bound v
  lower : ∀ e, value (Dynamic.lowerExpr e) = (value e).map C.lower

mutual

/-- The value of a column, of a generated placeholder or of a call of LOWER. -/
def scalar (column : String → Option V) : Expr → Option V
  | .identifier c => column c.value
  | .value (.placeholder _ (.pushed v)) => C.bound v
  | .function _ _ args _ _ => (scalarHead column args).map C.lower
  | _ => none

def scalarHead (column : String → Option V) : List Expr → Option V
  | [] => none
  | e :: _ => scalar column e

end

theorem reads_scalar (column : String → Option V) : C.Reads (C.scalar column) where
  placeholder _ _ := rfl
  lower _ := rfl

end Comparisons

open Comparisons SqlxData.Dynamic

variable {V : Type} (C : Comparisons V) (cfg : Config)

/-! ### Filters and search -/

/-- A filter on the values of the columns. -/
def Filter.truth (column : String → Option V) (f : Filter) : Truth :=
  let col := column f.field
  match f.operator with
  | .eq => C.test .eq col (C.bound f.value)
  | .ne => C.test .notEq col (C.bound f.value)
  | .gt => C.test .gt col (C.bound f.value)
  | .gte => C.test .gtEq col (C.bound f.value)
  | .lt => C.test .lt col (C.bound f.value)
  | .lte => C.test .ltEq col (C.bound f.value)
  | .like => negateIf f.not (Truth.lift₂ (C.like (escapeChar cfg.backend)) col (C.bound f.value))
  | .unsafeLike => negateIf f.not (Truth.lift₂ (C.like none) col (C.bound f.value))
  | .iLike =>
      match cfg.backend with
      | .postgres =>
          negateIf f.not (Truth.lift₂ (C.ilike (some backslash)) col (C.bound f.value))
      | backend =>
          -- without ILIKE both sides are lowered, and `not` is not looked at
          let pattern := match f.value with
            | .string s => .string (cfg.toLowercase s)
            | other => other
          Truth.lift₂ (C.like (escapeChar backend)) (col.map C.lower) (C.bound pattern)
  | .isNull => .ofBool col.isNone
  | .isNotNull => .ofBool col.isSome
  | .in | .notIn =>
      match f.value with
      | .array values => negateIf f.not (anyOf (values.map fun v => C.test .eq col (C.bound v)))
      | _ => .unknown
  | .between =>
      match f.value with
      | .array [low, high] => negateIf f.not (C.inRange col (C.bound low) (C.bound high))
      | _ => .unknown
  | .contains =>
      match f.value with
      | .string s =>
          negateIf f.not (Truth.lift₂ (C.like (escapeChar cfg.backend)) col
            (C.bound (.string ("%" ++ s ++ "%"))))
      | _ => .unknown

/-- One field of a search on the values of the columns. -/
def SearchParams.fieldTruth (column : String → Option V) (search : SearchParams)
    (pattern field : String) : Truth :=
  let patternValue := C.bound (.string pattern)
  if search.caseSensitive then
    Truth.lift₂ (C.like (escapeChar cfg.backend)) (column field) patternValue
  else
    Truth.lift₂ (C.like (escapeChar cfg.backend)) ((column field).map C.lower)
      (patternValue.map C.lower)

def SearchParams.pattern (search : SearchParams) : String :=
  if search.exactMatch then search.query else "%" ++ search.query ++ "%"

/-- The fields that are searched: none without a text. -/
def SearchParams.activeFields (search : SearchParams) : List String :=
  if !search.fields.isEmpty && !search.query.isEmpty then search.fields else []

/-- A search without active fields is passed by every row. -/
def SearchParams.passes (column : String → Option V) (search : SearchParams) : Bool :=
  search.activeFields = [] ||
    search.activeFields.any fun field =>
      search.fieldTruth C cfg column search.pattern field = .holds

/-- The row satisfies the filters and the search. -/
def Params.keeps (params : Params) (column : String → Option V) : Bool :=
  (params.filters.elim [] (·.filters)).all (fun f => f.truth C cfg column = .holds) &&
    params.search.all (·.passes C cfg column)

/-- The columns filters and search look at. -/
def Params.fields (params : Params) : List String :=
  (params.filters.elim [] (·.filters)).map (·.field) ++ params.search.elim [] (·.fields)

/-- Filters and search look at no other columns. -/
theorem Params.keeps_congr {params : Params} {column column' : String → Option V}
    (h : ∀ field ∈ params.fields, column field = column' field) :
    params.keeps C cfg column = params.keeps C cfg column' := by
  have hfilters : ∀ f ∈ params.filters.elim [] (·.filters),
      f.truth C cfg column = f.truth C cfg column' := by
    intro f hf
    have hfield := h f.field (List.mem_append_left _ (List.mem_map_of_mem hf))
    simp only [Filter.truth, hfield]
  have hsearch : ∀ s ∈ params.search, s.passes C cfg column = s.passes C cfg column' := by
    intro s hs
    have hfields : ∀ field ∈ s.activeFields, column field = column' field := by
      intro field hfield
      apply h field (List.mem_append_right _ _)
      rw [hs]
      rw [SearchParams.activeFields] at hfield
      split_ifs at hfield
      · exact hfield
      · cases hfield
    have htruth : ∀ field ∈ s.activeFields,
        s.fieldTruth C cfg column s.pattern field = s.fieldTruth C cfg column' s.pattern field :=
      fun field hfield => by simp only [SearchParams.fieldTruth, hfields field hfield]
    rw [SearchParams.passes, SearchParams.passes]
    congr 1
    rw [Bool.eq_iff_iff, List.any_eq_true, List.any_eq_true]
    exact exists_congr fun field => and_congr_right fun hfield => by rw [htruth field hfield]
  rw [Params.keeps, Params.keeps]
  congr 1
  · rw [Bool.eq_iff_iff, List.all_eq_true, List.all_eq_true]
    exact forall₂_congr fun f hf => by rw [hfilters f hf]
  · cases hs : params.search with
    | none => rfl
    | some s => exact hsearch s hs

/-! ### Generated conditions -/

namespace Dynamic

variable {α β : Type} {C : Comparisons V} {cfg : Config}

/-- The operand says the same as `truth`, a predicate on the columns. -/
def Means (C : Comparisons V) (truth : (String → Option V) → Truth) (e : Expr) : Prop :=
  ∀ value other, C.Reads value →
    C.operandTruth value other e = truth fun name => value (idExpr name)

/-- The expression has the value of the bound `v`. -/
def Binds (C : Comparisons V) (v : FilterValue) (e : Expr) : Prop :=
  ∀ value : Expr → Option V, C.Reads value → value e = C.bound v

theorem yields_bind_binds (v : FilterValue) : Yields (Binds C v) (bind cfg v) := by
  refine (yields_bind_placeholder v).mono ?_
  rintro e ⟨text, rfl⟩ value hreads
  exact hreads.placeholder text v

theorem yields_means {truth : (String → Option V) → Truth} (v : FilterValue) {g : Expr → Expr}
    (hg : ∀ e, Binds C v e → Means C truth (g e)) :
    Yields (Means C truth) (bind cfg v >>= fun e => pure (g e)) := (yields_bind_binds v).map hg

theorem means_bin {op : BinaryOperator} (hop : isComparison op = true) (field : String)
    {v : FilterValue} {e : Expr} (he : Binds C v e) :
    Means C (fun column => C.test op (column field) (C.bound v)) (bin op (idExpr field) e) := by
  intro value other hreads
  simp only [bin, operandTruth, hop, if_true, he value hreads]

theorem means_like (backend : Backend) (field : String) (negated : Bool) {v : FilterValue}
    {e : Expr} (he : Binds C v e) :
    Means C (fun column => negateIf negated
        (Truth.lift₂ (C.like (escapeChar backend)) (column field) (C.bound v)))
      (like backend field e negated) := by
  intro value other hreads
  simp only [like, operandTruth, he value hreads]

theorem yields_inListFilter_means (operator : String) (f : Filter)
    (hoperator : f.operator = .in ∨ f.operator = .notIn) :
    Yields (Means C fun column => f.truth C cfg column) (inListFilter cfg operator f) := by
  rw [inListFilter]
  split
  · rename_i arr harr
    split
    · exact yields_throw _ _
    · refine (yields_mapM_forall₂ (R := Binds C) yields_bind_binds arr).map fun es hes => ?_
      intro value other hreads
      have hvalues : es.map value = arr.map C.bound := by
        apply List.forall₂_eq_eq_eq ▸ (List.forall₂_map_left_iff.mpr ?_)
        rw [List.forall₂_map_right_iff]
        exact hes.flip.imp fun e v h => h value hreads
      have htests : (es.map fun x => C.test .eq (value (idExpr f.field)) (value x)) =
          arr.map fun v => C.test .eq (value (idExpr f.field)) (C.bound v) := by
        simpa only [List.map_map, Function.comp_def] using
          congrArg (List.map (C.test .eq (value (idExpr f.field)))) hvalues
      rcases hoperator with hop | hop <;>
        simp only [inList, operandTruth, Filter.truth, hop, harr, htests]
  · exact yields_throw _ _

/-- The condition of a filter says what the filter says. -/
theorem yields_filterExpr_means (f : Filter) :
    Yields (Means C fun column => f.truth C cfg column) (filterExpr cfg f) := by
  obtain ⟨field, operator, value, negated⟩ := f
  cases operator with
  | eq | ne | gt | gte | lt | lte => exact yields_means value fun e he => means_bin rfl field he
  | like => exact yields_means value fun e he => means_like cfg.backend field negated he
  | unsafeLike =>
      refine yields_means value fun e he => ?_
      intro row other hreads
      simp only [unsafeLike, operandTruth, he row hreads, Filter.truth]
  | iLike =>
      cases hbackend : cfg.backend <;> simp only [filterExpr, hbackend] <;>
        refine yields_means _ fun e he => ?_ <;> intro row other hreads
      -- only Postgres has ILIKE; elsewhere both sides are lowered
      case postgres => simp only [ilike, operandTruth, he row hreads, Filter.truth, hbackend]
      all_goals
        simp only [likeExpr, operandTruth, he row hreads, hreads.lower, Filter.truth, hbackend]
        rfl
  | between =>
      cases value with
      | array arr =>
          rcases arr with _ | ⟨low, _ | ⟨high, _ | ⟨third, rest⟩⟩⟩
          · exact yields_throw _ _
          · exact yields_throw _ _
          · refine (yields_bind_binds (C := C) low).seq fun lowPh hlow =>
              (yields_bind_binds (C := C) high).map fun highPh hhigh => ?_
            intro row other hreads
            simp only [between, operandTruth, hlow row hreads, hhigh row hreads, Filter.truth]
          · exact yields_throw _ _
      | _ => exact yields_throw _ _
  | isNull | isNotNull => exact yields_pure fun row other hreads => rfl
  | «in» => exact yields_inListFilter_means "In" _ (.inl rfl)
  | notIn => exact yields_inListFilter_means "NotIn" _ (.inr rfl)
  | contains =>
      cases value with
      | string s => exact yields_means _ fun e he => means_like cfg.backend field negated he
      | _ => exact yields_throw _ _

theorem yields_searchFieldExpr_means (search : SearchParams) (pattern field : String) :
    Yields (Means C fun column => search.fieldTruth C cfg column pattern field)
      (searchFieldExpr cfg search pattern field) := by
  cases hcase : search.caseSensitive <;> simp only [searchFieldExpr, hcase, if_true,
    Bool.false_eq_true, if_false] <;> refine yields_means _ fun e he => ?_ <;>
    intro row other hreads
  · simp only [likeExpr, operandTruth, hreads.lower, he row hreads, SearchParams.fieldTruth,
      hcase, Bool.false_eq_true, if_false]
    rfl
  · simp only [like, operandTruth, he row hreads, SearchParams.fieldTruth, hcase, if_true]
    rfl

/-! ### The conditions of a SELECT -/

/-- No condition of a cursor is added: there is no cursor, or it is empty. -/
def WithoutCursor (params : Params) : Prop :=
  ∀ cursor, params.pagination = some (.cursor cursor) → cursor.isEmpty = true

theorem cursorCondition_of_withoutCursor {params : Params} (h : WithoutCursor params) :
    cursorCondition cfg params.sortBy params.pagination = pure none := by
  rcases hpagination : params.pagination with _ | _ | _ | cursor
  · rfl
  · rfl
  · rfl
  · simp only [cursorCondition, h cursor hpagination, if_true]

/-- On values read this way, the generated conditions hold when the row
satisfies filters and search. -/
def DynamicParts.Mean (C : Comparisons V) (cfg : Config) (params : Params)
    (parts : DynamicParts) : Prop :=
  ∀ value other, C.Reads value →
    (parts.Holds (C.operandTruth value other) ↔
      params.keeps C cfg (fun name => value (idExpr name)) = true)

theorem satisfies_of_means {truth : (String → Option V) → Truth} {e : Expr} (he : IsOperand e)
    (hmeans : Means C truth e) {value : Expr → Option V} {other : Expr → Truth}
    (hreads : C.Reads value) :
    Satisfies (C.operandTruth value other) e ↔ truth (fun name => value (idExpr name)) = .holds := by
  rw [Satisfies, he.skeleton, ← hmeans value other hreads]
  rfl

/-- What is known of the conditions made of a list. -/
def Made (C : Comparisons V) (truth : α → (String → Option V) → Truth) (x : α) (e : Expr) : Prop :=
  IsOperand e ∧ Means C (truth x) e

theorem Yields.and {P Q : α → Prop} {m : BuildM α} (hP : Yields P m) (hQ : Yields Q m) :
    Yields (fun a => P a ∧ Q a) m := fun s a s' h => ⟨hP s a s' h, hQ s a s' h⟩

theorem all_made {truth : α → (String → Option V) → Truth} {xs : List α} {es : List Expr}
    (h : List.Forall₂ (Made C truth) xs es) {value : Expr → Option V} {other : Expr → Truth}
    (hreads : C.Reads value) :
    (∀ e ∈ es, Satisfies (C.operandTruth value other) e) ↔
      ∀ x ∈ xs, truth x (fun name => value (idExpr name)) = .holds := by
  induction h with
  | nil => simp
  | cons hmade _ ih =>
      simp only [List.forall_mem_cons, ih]
      rw [satisfies_of_means hmade.1 hmade.2 hreads]

theorem any_made {truth : α → (String → Option V) → Truth} {xs : List α} {es : List Expr}
    (h : List.Forall₂ (Made C truth) xs es) {value : Expr → Option V} {other : Expr → Truth}
    (hreads : C.Reads value) :
    (∃ e ∈ es, Satisfies (C.operandTruth value other) e) ↔
      ∃ x ∈ xs, truth x (fun name => value (idExpr name)) = .holds := by
  induction h with
  | nil => simp
  | cons hmade _ ih =>
      simp only [List.exists_mem_cons_iff, ih]
      rw [satisfies_of_means hmade.1 hmade.2 hreads]

theorem yields_filterExprs_made (filters : Option FilterParams) :
    Yields (fun es => List.Forall₂ (Made C fun f column => f.truth C cfg column)
      (filters.elim [] (·.filters)) es) (filterExprs cfg filters) := by
  cases filters with
  | none => exact yields_pure .nil
  | some filterParams =>
      exact yields_mapM_forall₂ (fun f => (yields_filterExpr f).and (yields_filterExpr_means f)) _

theorem yields_searchExprs_made (search : SearchParams) :
    Yields (fun es => List.Forall₂ (Made C fun field column =>
      search.fieldTruth C cfg column search.pattern field) search.activeFields es)
      (searchExprs cfg search) := by
  rw [searchExprs, SearchParams.activeFields]
  cases !search.fields.isEmpty && !search.query.isEmpty with
  | false => exact yields_pure .nil
  | true =>
      exact yields_mapM_forall₂ (fun field =>
        (yields_searchFieldExpr search search.pattern field).and
          (yields_searchFieldExpr_means search search.pattern field)) _

theorem searchCondition_means (search : Option SearchParams) :
    Yields (fun es => ∀ value other, C.Reads value →
        ((es = [] ∨ ∃ e ∈ es, Satisfies (C.operandTruth value other) e) ↔
          search.all (·.passes C cfg fun name => value (idExpr name)) = true))
      (searchCondition cfg search) := by
  cases search with
  | none => exact yields_pure (by simp)
  | some search =>
      intro s es s' hrun value other hreads
      have hmade := yields_searchExprs_made (C := C) search s es s' hrun
      have hnil : es = [] ↔ search.activeFields = [] := by
        rw [← List.length_eq_zero_iff, ← hmade.length_eq, List.length_eq_zero_iff]
      rw [any_made hmade hreads, hnil]
      simp [SearchParams.passes]

theorem yields_dynamicParts_say {params : Params} (hcursor : WithoutCursor params) :
    Yields (DynamicParts.Mean C cfg params) (dynamicParts cfg params) := by
  rw [dynamicParts, cursorCondition_of_withoutCursor hcursor]
  refine (yields_filterExprs_made (C := C) params.filters).seq fun filters hfilters =>
    (searchCondition_means (C := C) params.search).seq fun search hsearch => yields_pure ?_
  intro value other hreads
  have hall : (∀ e ∈ filters, Satisfies (C.operandTruth value other) e) ↔ _ :=
    all_made hfilters hreads
  have hany := hsearch value other hreads
  rw [Params.keeps, Bool.and_eq_true, ← hany, List.all_eq_true]
  simp only [decide_eq_true_eq]
  rw [← hall]
  constructor
  · rintro ⟨h, h', -⟩
    exact ⟨h, h'⟩
  · rintro ⟨h, h'⟩
    exact ⟨h, h', nofun⟩

/-- The WHERE a SELECT gets, as a tree: both conditions have to hold. -/
theorem satisfies_withDynamicWhere {parts : DynamicParts} (hshape : parts.WellShaped)
    (value : Expr → Truth) (selection : Option Expr) :
    (∀ e ∈ withDynamicWhere selection parts.combined, Satisfies value e) ↔
      (∀ e ∈ selection, Satisfies value e) ∧ parts.Holds value := by
  cases hcombined : parts.combined with
  | none =>
      have hholds := parts.holds_of_combined_eq_none value hcombined
      cases selection <;> simp [withDynamicWhere, hholds]
  | some combined =>
      obtain ⟨e, es, hfactors, hskeleton⟩ := hshape.skeleton_combined hcombined
      have hholds : Satisfies value (grouped combined) ↔ parts.Holds value := by
        rw [← parts.factors_hold_iff, hfactors, Satisfies, hskeleton, BoolText.holds_andAll]
        simp [Satisfies]
      cases selection with
      | none => simpa [withDynamicWhere] using (satisfies_grouped value combined).symm.trans hholds
      | some existing =>
          have hand : Satisfies value (and existing (grouped combined)) ↔
              Satisfies value existing ∧ Satisfies value (grouped combined) :=
            BoolText.holds_and _ _
          simpa [withDynamicWhere, hholds] using hand

end Dynamic

end SqlxData
