import SqlxData.Dynamic.Builder
import SqlxData.Sqlparser.Condition
import SqlxData.Sqlparser.Reference

/-!
The WHERE of a built statement, printed and read back with NOT over AND over
OR: the rows that pass it, against the rows that satisfy the base WHERE and the
dynamic conditions. A condition is evaluated along its skeleton; a row gives a
truth value to each operand.
-/

namespace SqlxData.Dynamic

open SqlxData.Sqlparser BoolText BoolText.Formula ThreeValued

variable {α β : Type} {cfg : Config} {params : Params}

/-! ### Results of the builder functions -/

/-- Whatever the state, a result satisfies `P`. -/
def Yields (P : α → Prop) (m : BuildM α) : Prop := ∀ s a s', m.run s = .ok (a, s') → P a

theorem yields_throw (P : α → Prop) (err : SqlxError) : Yields P (throw err : BuildM α) := by
  intro s a s' h
  cases h

theorem yields_pure {P : α → Prop} {a : α} (h : P a) : Yields P (pure a : BuildM α) := by
  rintro s _ _ ⟨⟩
  exact h

theorem Yields.mono {P Q : α → Prop} {m : BuildM α} (h : Yields P m) (hPQ : ∀ a, P a → Q a) :
    Yields Q m :=
  fun s a s' hrun => hPQ a (h s a s' hrun)

theorem Yields.seq {P : α → Prop} {Q : β → Prop} {m : BuildM α} {f : α → BuildM β}
    (hm : Yields P m) (hf : ∀ a, P a → Yields Q (f a)) : Yields Q (m >>= f) := by
  intro s b s' h
  rw [StateT.run_bind] at h
  cases hrun : m.run s with
  | error err =>
      rw [hrun] at h
      cases h
  | ok result =>
      rw [hrun] at h
      exact hf result.1 (hm s result.1 result.2 hrun) result.2 b s' h

theorem Yields.map {P : α → Prop} {Q : β → Prop} {m : BuildM α} (hm : Yields P m) {g : α → β}
    (hg : ∀ a, P a → Q (g a)) : Yields Q (m >>= fun a => pure (g a)) :=
  hm.seq fun a ha => yields_pure (hg a ha)

theorem yields_mapM_forall₂ {γ : Type} {R : γ → α → Prop} {f : γ → BuildM α}
    (hf : ∀ x, Yields (R x) (f x)) (xs : List γ) :
    Yields (fun as => List.Forall₂ R xs as) (xs.mapM f) := by
  induction xs with
  | nil => exact yields_pure .nil
  | cons x xs ih =>
      rw [List.mapM_cons]
      exact (hf x).seq fun a ha => ih.map fun as has => .cons ha has

theorem yields_mapM {γ : Type} {P : α → Prop} {f : γ → BuildM α} (hf : ∀ x, Yields P (f x))
    (xs : List γ) : Yields (fun as => ∀ a ∈ as, P a) (xs.mapM f) := by
  refine (yields_mapM_forall₂ (R := fun _ => P) hf xs).mono fun as hall => ?_
  induction hall with
  | nil => simp
  | cons ha _ ih => exact List.forall_mem_cons.mpr ⟨ha, ih⟩

/-- What is made of every element of a list whose elements have a property. -/
theorem yields_mapM_of_forall {Q : α → Prop} {R : α → β → Prop} {f : α → BuildM β}
    {xs : List α} (hxs : ∀ x ∈ xs, Q x) (hf : ∀ x, Q x → Yields (R x) (f x)) :
    Yields (fun es => List.Forall₂ R xs es) (xs.mapM f) := by
  induction xs with
  | nil => exact yields_pure .nil
  | cons x xs ih =>
      obtain ⟨hx, hxs⟩ := List.forall_mem_cons.mp hxs
      rw [List.mapM_cons]
      exact (hf x hx).seq fun e he => (ih hxs).map fun es hes => .cons he hes

/-! ### Shapes of the generated conditions -/

/-- The condition is a single operand of AND, OR and NOT. -/
structure IsOperand (e : Expr) : Prop where
  skeleton : e.skeleton = .operand e
  containsOr : containsOr e = false

/-- The condition may be put in parentheses and read back. -/
structure IsPart (e : Expr) : Prop where
  canonical : e.skeleton.Canonical
  operand : containsOr e = false → IsOperand e

theorem IsOperand.isPart {e : Expr} (h : IsOperand e) : IsPart e :=
  ⟨by rw [h.skeleton]; trivial, fun _ => h⟩

theorem isOperand_bin {op : BinaryOperator} (hand : op ≠ .and) (hor : op ≠ .or) (name : String)
    {rhs : Expr} (hrhs : containsOr rhs = false) : IsOperand (bin op (idExpr name) rhs) := by
  constructor <;> cases op <;> simp_all [bin, Expr.skeleton, containsOr, idExpr]

/-- A bound value becomes a placeholder for it. -/
theorem yields_bind_placeholder (v : FilterValue) :
    Yields (fun e => ∃ text, e = valueExpr (.placeholder text (.pushed v))) (bind cfg v) := by
  intro s e s' h
  have hrun : (bind cfg v).run s = (nextPlaceholder cfg s.n).bind fun p =>
      .ok (valueExpr (.placeholder p.1 (.pushed v)), ⟨s.bindValues ++ [v], p.2⟩) := rfl
  rw [hrun] at h
  cases hnext : nextPlaceholder cfg s.n with
  | error err => simp [hnext, Except.bind] at h
  | ok p =>
      simp only [hnext, Except.bind, Except.ok.injEq, Prod.mk.injEq] at h
      exact ⟨p.1, h.1.symm⟩

theorem yields_bind (v : FilterValue) :
    Yields (fun e => containsOr e = false) (bind cfg v) := by
  refine (yields_bind_placeholder v).mono ?_
  rintro e ⟨text, rfl⟩
  rfl

/-- A condition built from one placeholder. -/
theorem yields_operand (v : FilterValue) {g : Expr → Expr}
    (hg : ∀ e, containsOr e = false → IsOperand (g e)) :
    Yields IsOperand (bind cfg v >>= fun e => pure (g e)) := (yields_bind v).map hg

theorem yields_inListFilter (operator : String) (filter : Filter) :
    Yields IsOperand (inListFilter cfg operator filter) := by
  rw [inListFilter]
  split
  · split
    · exact yields_throw _ _
    · exact (yields_mapM yields_bind _).map fun es _ => ⟨rfl, rfl⟩
  · exact yields_throw _ _

theorem yields_filterExpr (filter : Filter) : Yields IsOperand (filterExpr cfg filter) := by
  obtain ⟨field, operator, value, negated⟩ := filter
  cases operator with
  | eq | ne | gt | gte | lt | lte =>
      exact yields_operand value fun e he => isOperand_bin (by decide) (by decide) field he
  | like | unsafeLike => exact yields_operand value fun e _ => ⟨rfl, rfl⟩
  | iLike =>
      cases hbackend : cfg.backend <;> simp only [filterExpr, hbackend] <;>
        exact yields_operand _ fun e _ => ⟨rfl, rfl⟩
  | between =>
      cases value with
      | array arr =>
          rcases arr with _ | ⟨low, _ | ⟨high, _ | ⟨third, rest⟩⟩⟩
          · exact yields_throw _ _
          · exact yields_throw _ _
          · exact (yields_bind low).seq fun lowPh _ => (yields_bind high).map fun highPh _ =>
              ⟨rfl, rfl⟩
          · exact yields_throw _ _
      | _ => exact yields_throw _ _
  | isNull | isNotNull => exact yields_pure ⟨rfl, rfl⟩
  | «in» => exact yields_inListFilter "In" _
  | notIn => exact yields_inListFilter "NotIn" _
  | contains =>
      cases value with
      | string s => exact yields_operand _ fun e _ => ⟨rfl, rfl⟩
      | _ => exact yields_throw _ _

theorem yields_searchFieldExpr (search : SearchParams) (pattern field : String) :
    Yields IsOperand (searchFieldExpr cfg search pattern field) := by
  cases hcase : search.caseSensitive <;> simp only [searchFieldExpr, hcase, if_true,
    Bool.false_eq_true, if_false] <;> exact yields_operand _ fun e _ => ⟨rfl, rfl⟩

theorem cursorOperator_ne (direction : CursorDirection) (asc : Bool) :
    cursorOperator direction asc ≠ .and ∧ cursorOperator direction asc ≠ .or := by
  cases direction <;> cases asc <;> decide

/-- The value of the equality is bound like that of the comparison or is the
same. -/
theorem yields_eqPlaceholder {P : Expr → Prop} {v : FilterValue} {value : Expr}
    (hbind : Yields P (bind cfg v)) (hvalue : P value) :
    Yields P (eqPlaceholder cfg v value) := by
  rw [eqPlaceholder]
  split
  · exact hbind
  · exact yields_pure hvalue

/-- The condition of the fields from some index on; that of the last field is
a single comparison. -/
theorem yields_cursorCondition (direction : CursorDirection) (sorts : List SortField)
    (values : List FilterValue) :
    Yields (fun e => IsPart e ∧ (sorts.length = 1 → IsOperand e))
      (buildCursorConditionRecursive cfg direction sorts values) := by
  induction sorts generalizing values with
  | nil => exact yields_throw _ _
  | cons sort sorts ih =>
      rcases values with _ | ⟨v, values⟩
      · exact yields_throw _ _
      obtain ⟨hand, hor⟩ := cursorOperator_ne direction sort.isAsc
      rcases sorts with _ | ⟨sort', sorts⟩
      · refine (yields_bind v).map fun value hvalue => ?_
        have hlast := isOperand_bin hand hor sort.field hvalue
        exact ⟨hlast.isPart, fun _ => hlast⟩
      refine (yields_bind v).seq fun value hvalue => (ih values).seq fun rest hrest =>
        (yields_eqPlaceholder (yields_bind v) hvalue).map fun eqValue heqValue => ?_
      obtain ⟨hpart, hlast⟩ := hrest
      have hfirst := (isOperand_bin hand hor sort.field hvalue).skeleton
      have hequal : IsOperand (bin .eq (idExpr sort.field) eqValue) :=
        isOperand_bin (by decide) (by decide) sort.field heqValue
      -- the rest is the last comparison or stands in parentheses
      have hrestLiteral :
          (if sorts.isEmpty then rest else .nested rest).skeleton.FitsAt .literal := by
        split
        · rename_i hsorts
          rw [(hlast (by simpa using hsorts)).skeleton]
          trivial
        · exact hpart.canonical
      refine ⟨⟨?_, fun h => absurd h (by simp [cursorAlternative, or, bin, containsOr])⟩, ?_⟩
      · have hskeleton : (cursorAlternative direction sort value eqValue rest
            sorts.isEmpty).skeleton =
              .or (.operand (bin (cursorOperator direction sort.isAsc) (idExpr sort.field) value))
                (.paren (.and (.operand (bin .eq (idExpr sort.field) eqValue))
                  (if sorts.isEmpty then rest else .nested rest).skeleton)) := by
          rw [← hfirst, ← hequal.skeleton]
          rfl
        rw [hskeleton]
        exact ⟨trivial, trivial, hrestLiteral⟩
      · intro hlength
        simp at hlength

/-- The condition of a cursor is that of all its fields. -/
theorem yields_cursorExpr_of {P : Expr → Prop} {sortBy : SortingParams} {cursor : CursorParams}
    (h : ∀ direction, cursor.direction = some direction →
      cursor.values.length = sortBy.sorts.length →
        Yields P (buildCursorConditionRecursive cfg direction sortBy.sorts cursor.values)) :
    Yields P (cursorExpr cfg (some sortBy) cursor) := by
  unfold cursorExpr
  split
  · exact yields_throw _ _
  simp only
  split
  · exact yields_throw _ _
  rename_i hlength
  have hcondition := fun direction hdirection =>
    h direction hdirection (Decidable.not_not.mp hlength).symm
  cases hdirection : cursor.direction with
  | none => exact yields_throw _ _
  | some direction =>
      simp only
      split
      · rename_i sort v hsorts hvalues
        rw [hsorts, hvalues] at hcondition
        exact hcondition direction hdirection
      · exact hcondition direction hdirection

theorem yields_cursorExpr (sortBy : Option SortingParams) (cursor : CursorParams) :
    Yields IsPart (cursorExpr cfg sortBy cursor) := by
  cases sortBy with
  | none =>
      unfold cursorExpr
      split <;> exact yields_throw _ _
  | some sortBy =>
      refine yields_cursorExpr_of fun direction _ _ s e s' h => ?_
      exact (yields_cursorCondition direction sortBy.sorts cursor.values s e s' h).1

theorem yields_parts_noCursor (hpagination : ∀ cursor, params.pagination ≠ some (.cursor cursor)) :
    Yields (fun parts => parts.cursor = none) (dynamicParts cfg params) := by
  have hany : ∀ {α : Type} (m : BuildM α), Yields (fun _ => True) m := fun _ _ _ _ _ => trivial
  refine (hany _).seq fun filters _ => (hany _).seq fun search _ => ?_
  have hcondition : Yields (fun condition => condition = none)
      (cursorCondition cfg params.sortBy params.pagination) := by
    rcases hcase : params.pagination with _ | _ | _ | cursor
    · exact yields_pure rfl
    · exact yields_pure rfl
    · exact yields_pure rfl
    · exact absurd hcase (hpagination cursor)
  exact hcondition.map fun condition h => h

/-- The cursor condition of a SELECT. -/
theorem yields_parts_cursor {P : Expr → Prop} {sortBy : SortingParams} {cursor : CursorParams}
    (hsortBy : params.sortBy = some sortBy) (hpagination : params.pagination = some (.cursor cursor))
    (h : ∀ direction, cursor.direction = some direction →
      cursor.values.length = sortBy.sorts.length →
        Yields P (buildCursorConditionRecursive cfg direction sortBy.sorts cursor.values)) :
    Yields (fun parts => if cursor.isEmpty then parts.cursor = none
      else ∃ e, parts.cursor = some e ∧ P e) (dynamicParts cfg params) := by
  have hany : ∀ {α : Type} (m : BuildM α), Yields (fun _ => True) m := fun _ _ _ _ _ => trivial
  refine (hany _).seq fun filters _ => (hany _).seq fun search _ => ?_
  have hcondition : Yields (fun condition => if cursor.isEmpty then condition = none
      else ∃ e, condition = some e ∧ P e) (cursorCondition cfg params.sortBy params.pagination) := by
    rw [hsortBy, hpagination, cursorCondition]
    split
    · exact yields_pure rfl
    · exact (yields_cursorExpr_of h).map fun e he => ⟨e, rfl, he⟩
  exact hcondition.map fun condition h => h

/-! ### The dynamic conditions of a SELECT -/

/-- The shape of the conditions the builder joins. -/
structure DynamicParts.WellShaped (parts : DynamicParts) : Prop where
  filters : ∀ e ∈ parts.filters, IsOperand e
  search : ∀ e ∈ parts.search, IsOperand e
  cursor : ∀ e ∈ parts.cursor, IsPart e

theorem yields_dynamicParts : Yields DynamicParts.WellShaped (dynamicParts cfg params) := by
  have hfilters : Yields (fun es => ∀ e ∈ es, IsOperand e) (filterExprs cfg params.filters) := by
    cases params.filters with
    | none => exact yields_pure (by simp)
    | some filterParams => exact yields_mapM yields_filterExpr _
  have hsearch : Yields (fun es => ∀ e ∈ es, IsOperand e)
      (searchCondition cfg params.search) := by
    cases params.search with
    | none => exact yields_pure (by simp)
    | some search =>
        simp only [searchCondition, searchExprs]
        split
        · exact yields_mapM (yields_searchFieldExpr search _) _
        · exact yields_pure (by simp)
  have hcursor : Yields (fun condition : Option Expr => ∀ e ∈ condition, IsPart e)
      (cursorCondition cfg params.sortBy params.pagination) := by
    rcases params.pagination with _ | _ | _ | cursor
    · exact yields_pure (by simp)
    · exact yields_pure (by simp)
    · exact yields_pure (by simp)
    · simp only [cursorCondition]
      split
      · exact yields_pure (by simp)
      · exact (yields_cursorExpr _ _).map fun e he => by simpa using he
  exact hfilters.seq fun filters hf => hsearch.seq fun search hs => hcursor.map fun cursor hc =>
    ⟨hf, hs, hc⟩

section Conditions

variable (value : Expr → Truth)

/-- The row satisfies all filters, the search and the cursor condition. -/
structure DynamicParts.Holds (parts : DynamicParts) : Prop where
  filters : ∀ e ∈ parts.filters, Satisfies value e
  search : parts.search = [] ∨ ∃ e ∈ parts.search, Satisfies value e
  cursor : ∀ e ∈ parts.cursor, Satisfies value e

end Conditions

/-! ### How the conditions are joined -/

theorem containsOr_grouped (e : Expr) : containsOr (grouped e) = false := by
  rw [grouped]
  split
  · rfl
  · simp_all

/-- Joining puts every part in parentheses that needs them. -/
theorem grouped_foldl_groupedAnd (p : Expr) (ps : List Expr) :
    grouped (ps.foldl groupedAnd p) = (ps.map grouped).foldl and (grouped p) := by
  induction ps using List.reverseRecOn with
  | nil => rfl
  | append_singleton ps e ih =>
      have hjoined : containsOr (groupedAnd (ps.foldl groupedAnd p) e) = false := by
        simp [groupedAnd, bin, containsOr, containsOr_grouped]
      rw [List.foldl_append, List.foldl_cons, List.foldl_nil, grouped, hjoined]
      simp only [Bool.false_eq_true, if_false, List.map_append, List.map_singleton,
        List.foldl_append, List.foldl_cons, List.foldl_nil]
      rw [groupedAnd, ih]
      rfl

theorem isOperand_foldl_containsOr {e : Expr} {es : List Expr} (he : IsOperand e)
    (hes : ∀ e' ∈ es, IsOperand e') : containsOr (es.foldl and e) = false := by
  induction es using List.reverseRecOn with
  | nil => exact he.containsOr
  | append_singleton es e' ih =>
      have hinit := ih fun e'' h => hes e'' (by simp [h])
      simp [and, bin, containsOr, hinit, (hes e' (by simp)).containsOr]

/-- A search over several fields is an OR, over one field an operand. -/
theorem isPart_foldl_or {e : Expr} {es : List Expr} (he : IsOperand e)
    (hes : ∀ e' ∈ es, IsOperand e') : IsPart (es.foldl or e) := by
  induction es using List.reverseRecOn with
  | nil => exact he.isPart
  | append_singleton es e' ih =>
      have hinit := (ih fun e'' h => hes e'' (by simp [h])).canonical
      have hlast := (hes e' (by simp)).skeleton
      rw [List.foldl_append, List.foldl_cons, List.foldl_nil]
      refine ⟨?_, fun h => absurd h (by simp [or, bin, containsOr])⟩
      have hskeleton : (or (es.foldl or e) e').skeleton =
          .or (es.foldl or e).skeleton e'.skeleton := rfl
      rw [hskeleton, hlast]
      exact ⟨hinit, trivial⟩

theorem IsPart.literal {e : Expr} (h : IsPart e) : (grouped e).skeleton.FitsAt .literal := by
  rw [grouped]
  split
  · exact h.canonical
  · rename_i hor
    rw [(h.operand (by simpa using hor)).skeleton]
    trivial

theorem satisfies_grouped (value : Expr → Truth) (e : Expr) :
    Satisfies value (grouped e) ↔ Satisfies value e := by
  rw [grouped]
  split
  · exact holds_paren _
  · exact Iff.rfl

theorem satisfies_foldl_or (value : Expr → Truth) (e : Expr) (es : List Expr) :
    Satisfies value (es.foldl or e) ↔ ∃ e' ∈ e :: es, Satisfies value e' := by
  induction es using List.reverseRecOn with
  | nil => simp
  | append_singleton es e' ih =>
      rw [List.foldl_append, List.foldl_cons, List.foldl_nil]
      have hor : Satisfies value (or (es.foldl or e) e') ↔
          Satisfies value (es.foldl or e) ∨ Satisfies value e' := holds_or _ _
      rw [hor, ih]
      simp [or_assoc, or_and_right, exists_or]

/-- The operands and parentheses the dynamic condition is written with, from
left to right. -/
def DynamicParts.factors (parts : DynamicParts) : List Expr :=
  parts.filters ++ ((reduce or parts.search).toList ++ parts.cursor.toList).map grouped

theorem DynamicParts.WellShaped.literal {parts : DynamicParts} (h : parts.WellShaped) :
    ∀ e ∈ parts.factors, e.skeleton.FitsAt .literal := by
  intro e he
  rw [factors, List.mem_append] at he
  rcases he with he | he
  · rw [(h.filters e he).skeleton]
    trivial
  obtain ⟨part, hpart, rfl⟩ := List.mem_map.mp he
  refine IsPart.literal ?_
  rcases List.mem_append.mp hpart with hsearch | hcursor
  · rcases hlist : parts.search with _ | ⟨e, es⟩
    · simp [hlist, reduce] at hsearch
    · simp only [hlist, reduce, Option.toList_some, List.mem_singleton] at hsearch
      rw [hsearch]
      exact isPart_foldl_or (h.search e (by simp [hlist]))
        fun e' he' => h.search e' (by simp [hlist, he'])
  · exact h.cursor part (by simpa using hcursor)

theorem DynamicParts.factors_hold_iff (value : Expr → Truth) (parts : DynamicParts) :
    (∀ e ∈ parts.factors, Satisfies value e) ↔ parts.Holds value := by
  have hsearch : (∀ e ∈ (reduce or parts.search).toList, Satisfies value e) ↔
      parts.search = [] ∨ ∃ e ∈ parts.search, Satisfies value e := by
    cases parts.search with
    | nil => simp [reduce]
    | cons e es => simp [reduce, satisfies_foldl_or]
  have hcursor : (∀ e ∈ parts.cursor.toList, Satisfies value e) ↔
      ∀ e ∈ parts.cursor, Satisfies value e := by simp
  simp only [factors, List.forall_mem_append, List.forall_mem_map, satisfies_grouped]
  rw [hsearch, hcursor]
  exact ⟨fun h => ⟨h.1, h.2.1, h.2.2⟩, fun h => ⟨h.filters, h.search, h.cursor⟩⟩

/-- The dynamic condition behind a base WHERE is the conjunction of its
factors. -/
theorem DynamicParts.WellShaped.skeleton_combined {parts : DynamicParts} (h : parts.WellShaped)
    {combined : Expr} (hcombined : parts.combined = some combined) :
    ∃ e es, parts.factors = e :: es ∧
      (grouped combined).skeleton = e.skeleton.andAll (es.map Expr.skeleton) := by
  have hjoin : ∀ (p : Expr) (ps : List Expr),
      (grouped (ps.foldl groupedAnd p)).skeleton =
        (grouped p).skeleton.andAll ((ps.map grouped).map Expr.skeleton) := by
    intro p ps
    rw [grouped_foldl_groupedAnd]
    exact skeleton_foldl_and _ _
  rw [DynamicParts.combined] at hcombined
  rcases hfilters : parts.filters with _ | ⟨f, fs⟩
  · simp only [hfilters, reduce, Option.toList_none, List.nil_append] at hcombined
    rw [factors, hfilters, List.nil_append]
    cases hrest : (reduce or parts.search).toList ++ parts.cursor.toList with
    | nil =>
        simp only [reduce] at hrest
        simp [hrest] at hcombined
    | cons p ps =>
        simp only [reduce] at hrest
        simp only [hrest, Option.some.injEq] at hcombined
        exact ⟨grouped p, ps.map grouped, by simp, by rw [← hcombined, hjoin]⟩
  · simp only [hfilters, reduce, Option.toList_some, List.cons_append, List.nil_append,
      Option.some.injEq] at hcombined
    refine ⟨f, fs ++ ((reduce or parts.search).toList ++ parts.cursor.toList).map grouped,
      by rw [factors, hfilters, List.cons_append], ?_⟩
    have hplain : grouped (fs.foldl and f) = fs.foldl and f := by
      rw [grouped, isOperand_foldl_containsOr (h.filters f (by simp [hfilters]))
        fun e he => h.filters e (by simp [hfilters, he])]
      rfl
    have hjoined : (fs.foldl and f).skeleton = f.skeleton.andAll (fs.map Expr.skeleton) :=
      skeleton_foldl_and f fs
    rw [← hcombined, hjoin, hplain, hjoined, andAll, andAll, andAll, ← List.foldl_append,
      ← List.map_append]
    rfl

/-! ### The WHERE of a SELECT -/

/-- The alternatives of a base WHERE, between its top-level ORs, that the
dynamic condition is not joined to. -/
def openAlternatives (e : Expr) : List (Formula Expr) := e.skeleton.alternatives.dropLast

/-- On one row, the joined WHERE is read back as both conditions exactly when
every open alternative that holds brings the dynamic condition along. -/
theorem passesText_and_iff {existing combined : Expr} {parts : DynamicParts}
    (hexisting : existing.skeleton.Canonical) (hparts : parts.WellShaped)
    (hcombined : parts.combined = some combined) (value : Expr → Truth) :
    (PassesText value (and existing (grouped combined)) ↔
        Satisfies value existing ∧ parts.Holds value) ↔
      ∀ a ∈ openAlternatives existing, BoolText.Holds value a → parts.Holds value := by
  obtain ⟨e, es, hfactors, hskeleton⟩ := hparts.skeleton_combined hcombined
  have hliteral : ∀ g ∈ (e :: es).map Expr.skeleton, g.FitsAt .literal := by
    rw [← hfactors]
    exact List.forall_mem_map.mpr hparts.literal
  have hprint : (and existing (grouped combined)).skeleton.print =
      (existing.skeleton.andAll ((e :: es).map Expr.skeleton)).print := by
    rw [List.map_cons, ← print_and_andAll, ← hskeleton]
    rfl
  have hcanonical : ∀ e' ∈ existing :: e :: es, e'.skeleton.Canonical :=
    List.forall_mem_cons.mpr ⟨hexisting, fun e' he' =>
      (hliteral _ (List.mem_map_of_mem he')).of_literal⟩
  have hpasses := @passesText_andAll_iff value _ _ _ hcanonical hprint
  have hall : (∀ g ∈ (e :: es).map Expr.skeleton, BoolText.Holds value g) ↔ parts.Holds value := by
    rw [← parts.factors_hold_iff value, hfactors, List.forall_mem_map]
    rfl
  have hexact := @someRunHolds_cons_iff _ value existing.skeleton _
    fun g hg => (hliteral g hg).alternatives
  rw [hall] at hexact
  rw [hpasses]
  exact hexact

theorem DynamicParts.holds_of_combined_eq_none {parts : DynamicParts} (value : Expr → Truth)
    (h : parts.combined = none) : parts.Holds value := by
  have hnil : ∀ (op : Expr → Expr → Expr) (l : List Expr), reduce op l = none → l = [] := by
    intro op l hl
    cases l with
    | nil => rfl
    | cons e es => simp [reduce] at hl
  rw [DynamicParts.combined] at h
  have hempty := hnil groupedAnd _ h
  simp only [List.append_eq_nil_iff, Option.toList_eq_nil_iff] at hempty
  obtain ⟨⟨hfilters, hsearch⟩, hcursor⟩ := hempty
  refine ⟨?_, Or.inl (hnil or _ hsearch), ?_⟩
  · rw [hnil and _ hfilters]
    simp
  · rw [hcursor]
    simp

/-! ### The built statement -/

/-- The SELECTs of a set expression, from left to right. -/
def selects : SetExpr → List Select
  | .select s => [s]
  | .setOperation _ _ left right => selects left ++ selects right
  | .query ⟨_, body, _, _, _, _⟩ => selects body
  | _ => []

/-- The conditions the builder makes of the request. -/
def GeneratedParts (cfg : Config) (params : Params) (parts : DynamicParts) : Prop :=
  ∃ s s', (dynamicParts cfg params).run s = .ok (parts, s')

/-- `s'` is the SELECT `s` with generated conditions in its WHERE. -/
def Extended (cfg : Config) (params : Params) (s s' : Select) : Prop :=
  ∃ parts, GeneratedParts cfg params parts ∧
    s' = { s with selection := withDynamicWhere s.selection parts.combined }

theorem yields_processSelect (s : Select) :
    Yields (Extended cfg params s) (processSelect cfg params s) := by
  have hparts : Yields (GeneratedParts cfg params) (dynamicParts cfg params) :=
    fun s parts s' h => ⟨s, s', h⟩
  exact hparts.map fun parts h => ⟨parts, h, rfl⟩

theorem yields_processSetExpr (e : SetExpr) :
    Yields (fun e' => List.Forall₂ (Extended cfg params) (selects e) (selects e'))
      (processSetExpr cfg params e) := by
  fun_induction processSetExpr cfg params e with
  | case1 s => exact (yields_processSelect s).map fun s' h => .cons h .nil
  | case2 op quantifier left right ihl ihr =>
      exact ihl.seq fun left' hl => ihr.map fun right' hr => List.rel_append hl hr
  | case3 ctes body order limit fetch rest ih => exact ih.map fun body' h => h
  | case4 rows => exact yields_pure .nil
  | case5 name => exact yields_pure .nil
  | case6 form args => exact yields_pure .nil

/-- The text is that of the query, with the placeholders numbered anew. -/
def PrintedFrom (D : Display) (q : Query) (sql : List Char) : Prop :=
  ∃ (binds : List FilterValue) (numbers : List ℕ) (maxExisting : ℕ), sql =
    (renumberNumberedPlaceholdersWithBinds binds numbers maxExisting (render (D.query q))).1

/-- A successful build prints a query whose SELECTs have got the generated
conditions and whose ORDER BY is that of the request. -/
theorem exists_extended {D : Display} {parser : Core.Parser} {baseSql : List Char} {q : Query}
    {initialBinds : List FilterValue} {built : BuiltSql}
    (hparse : Core.parseSql parser baseSql = .ok (some (.query q)))
    (hparams : params.isEmpty = false)
    (hbuild : buildDynamicSql cfg D parser baseSql params initialBinds = .ok built) :
    ∃ q', PrintedFrom D q' built.sql ∧
      List.Forall₂ (Extended cfg params) (selects q.body) (selects q'.body) ∧
      q'.orderBy = orderByFor params q.orderBy := by
  unfold buildDynamicSql at hbuild
  simp only [hparse, Except.mapError, Bind.bind, Except.bind] at hbuild
  generalize hbase : baseBinds baseSql (.query q) params initialBinds = base at hbuild
  obtain ⟨binds, numbers⟩ := base
  simp only [dynamicStatement, hparams, Bool.false_eq_true, if_false, Bind.bind, Except.bind]
    at hbuild
  cases hquery : processQuery cfg q params binds (maxPlaceholder numbers) with
  | error err => simp [hquery] at hbuild
  | ok result =>
      obtain ⟨q', binds'⟩ := result
      simp only [hquery, Except.ok.injEq] at hbuild
      refine ⟨q', ⟨binds', numbers, maxPlaceholder numbers, by rw [← hbuild]; rfl⟩, ?_⟩
      rw [processQuery] at hquery
      cases hn : addU8 cfg (startIndex binds.length (maxPlaceholder numbers)) 1 with
      | error err => simp [hn, Bind.bind, Except.bind] at hquery
      | ok n =>
          simp only [hn, Bind.bind, Except.bind] at hquery
          cases hbody : (processSetExpr cfg params q.body).run ⟨binds, n⟩ with
          | error err => simp [hbody] at hquery
          | ok processed =>
              cases hlimit : limitClauseOf cfg params q.limitClause with
              | error err => simp [hbody, hlimit] at hquery
              | ok limitClause =>
                  simp only [hbody, hlimit, Except.ok.injEq, Prod.mk.injEq] at hquery
                  obtain ⟨rfl, -⟩ := hquery
                  exact ⟨yields_processSetExpr q.body _ _ _ hbody, rfl⟩

/-- Isolation of the base WHERE: in every SELECT that has one, a row passes
the printed WHERE exactly when it satisfies the base WHERE and the generated
conditions, if and only if no alternative of the base WHERE but the last holds
there without the generated conditions. -/
theorem base_where_isolated_iff {D : Display} {parser : Core.Parser} {baseSql : List Char}
    {q : Query} {initialBinds : List FilterValue} {built : BuiltSql}
    (hparse : Core.parseSql parser baseSql = .ok (some (.query q)))
    (hcanonical : ∀ s ∈ selects q.body, ∀ e ∈ s.selection, e.skeleton.Canonical)
    (hparams : params.isEmpty = false)
    (hbuild : buildDynamicSql cfg D parser baseSql params initialBinds = .ok built) :
    ∃ q', PrintedFrom D q' built.sql ∧
      List.Forall₂ (fun s s' => ∃ parts, GeneratedParts cfg params parts ∧
          ∀ existing, s.selection = some existing → ∀ value,
            (PassesClause value s'.selection ↔ Satisfies value existing ∧ parts.Holds value) ↔
              ∀ a ∈ openAlternatives existing, BoolText.Holds value a → parts.Holds value)
        (selects q.body) (selects q'.body) := by
  obtain ⟨q', hsql, hselects, -⟩ := exists_extended hparse hparams hbuild
  refine ⟨q', hsql, ((List.forall₂_and_left _ _).mpr ⟨hcanonical, hselects⟩).imp ?_⟩
  rintro s s' ⟨hs, parts, ⟨st, st', hrun⟩, rfl⟩
  refine ⟨parts, ⟨st, st', hrun⟩, fun existing hexisting value => ?_⟩
  have hexisting' := hs existing (by simp [hexisting])
  have hshape := yields_dynamicParts st parts st' hrun
  cases hcombined : parts.combined with
  | none =>
      -- nothing was generated: the WHERE is the base WHERE
      have hholds := parts.holds_of_combined_eq_none value hcombined
      simp [PassesClause, withDynamicWhere, hexisting, passesText_of_canonical hexisting', hholds]
  | some combined =>
      have hexact := passesText_and_iff hexisting' hshape hcombined value
      simpa [PassesClause, withDynamicWhere, hexisting] using hexact

/-! ### Examples -/

namespace WhereExample

open Reference

/-- `admin = 1 OR age > 18` -/
def adminOrAdult : Expr := or (eq "admin" (numberExpr 1)) (gt "age" (numberExpr 18))

def users (condition : Expr) : Query :=
  simpleQuery (.select (simpleSelect [.wildcard] "users" (some condition)))

/-- What is generated for the filter. -/
def cityPart : DynamicParts :=
  ⟨[eq "city" (valueExpr (.placeholder "$1" (.pushed (.string "Bonn"))))], [], none⟩

/-- An administrator who does not live in Bonn: only the comparison of `admin`
holds. -/
def adminElsewhere : Expr → Truth
  | .binaryOp (.identifier name) .eq _ => if name.value = "admin" then .holds else .fails
  | _ => .fails

end WhereExample

open WhereExample Example Reference

/-- A base WHERE with a top-level OR: the administrator who is not in Bonn
passes the WHERE of the built text. -/
theorem filter_bypassed :
    ∃ built,
      buildDynamicSql (build .sqlite) Display.reference (parserOf (users adminOrAdult))
        (text (users adminOrAdult)) inBonn [] = .ok built ∧
      built.sql = "SELECT * FROM users WHERE admin = 1 OR age > 18 AND city = $1".toList ∧
      ∃ parts where', GeneratedParts (build .sqlite) inBonn parts ∧
        withDynamicWhere (some adminOrAdult) parts.combined = some where' ∧
        ("SELECT * FROM users WHERE ".toList ++ render (Display.reference.expr where')) =
          built.sql ∧
        ¬(PassesText adminElsewhere where' ↔
          Satisfies adminElsewhere adminOrAdult ∧ parts.Holds adminElsewhere) := by
  refine ⟨_, rfl, by decide, cityPart, _, ⟨⟨[], 1⟩, _, rfl⟩, rfl, by decide, fun h => ?_⟩
  have hcity : Truth.fails = Truth.holds :=
    (h.mp ⟨_, rfl, rfl⟩).2.filters _ (List.mem_cons_self ..)
  cases hcity

/-- With a base WHERE without OR, the theorem gives isolation on every row. -/
theorem base_where_isolated_adults :
    ∃ q', PrintedFrom Display.reference q'
        "SELECT * FROM users WHERE age > 18 AND city = $1".toList ∧
      List.Forall₂ (fun s s' => ∃ parts, GeneratedParts (build .sqlite) inBonn parts ∧
          ∀ existing, s.selection = some existing → ∀ value,
            (PassesClause value s'.selection ↔ Satisfies value existing ∧ parts.Holds value) ↔
              ∀ a ∈ openAlternatives existing, BoolText.Holds value a → parts.Holds value)
        (selects (users (gt "age" (numberExpr 18))).body) (selects q'.body) :=
  @base_where_isolated_iff (build .sqlite) inBonn Display.reference
    (parserOf (users (gt "age" (numberExpr 18)))) (text (users (gt "age" (numberExpr 18))))
    (users (gt "age" (numberExpr 18))) []
    ⟨"SELECT * FROM users WHERE age > 18 AND city = $1".toList, [.string "Bonn"]⟩ rfl
    (by simp [users, simpleQuery, selects, simpleSelect, gt, bin, Expr.skeleton, Canonical, FitsAt])
    rfl rfl

end SqlxData.Dynamic
