import SqlxData.Dynamic.CursorBinds
import SqlxData.Paging.Table
import SqlxData.Sqlparser.Reference

/-!
The cursor condition as a condition on a row: behind the cursor in the order
of the sort list, or ahead of it.
-/

namespace SqlxData.Paging

open SqlxData.Sqlparser SqlxData.Dynamic BoolText ThreeValued Seek

variable {V : Type} [LinearOrder V] {cfg : Config}

/-! ### Comparisons with placeholders -/

/-- The truth of a comparison of a column with a generated placeholder, which
stands for the value it was pushed with. -/
def comparisonTruth (column : String → Option V) (bound : FilterValue → Option V) : Expr → Truth
  | .binaryOp (.identifier c) op (.value (.placeholder _ (.pushed v))) =>
      match comparison op with
      | some test => Truth.lift₂ test (column c.value) (bound v)
      | none => .unknown
  | _ => .unknown

section Conditions

variable (column : String → Option V) (bound : FilterValue → Option V)

theorem satisfies_comparison_pushed (direction : CursorDirection) (sort : SortField) (text : String)
    (v : FilterValue) :
    Satisfies (comparisonTruth column bound) (bin (cursorOperator direction sort.isAsc)
        (idExpr sort.field) (valueExpr (.placeholder text (.pushed v)))) ↔
      Ahead (if direction = .before then !sort.isAsc else sort.isAsc) (bound v)
        (column sort.field) := by
  obtain ⟨hand, hor⟩ := cursorOperator_ne direction sort.isAsc
  rw [Satisfies, (isOperand_bin hand hor sort.field rfl).skeleton, Holds, Formula.eval, bin, idExpr,
    valueExpr]
  cases direction <;> cases sort.isAsc <;>
    simp only [cursorOperator, comparisonTruth, comparison] <;>
    first | exact lift₂_gt _ _ | exact lift₂_lt _ _

theorem satisfies_equality_pushed (sort : SortField) (text : String) (v : FilterValue) :
    Satisfies (comparisonTruth column bound)
        (bin .eq (idExpr sort.field) (valueExpr (.placeholder text (.pushed v)))) ↔
      Same (bound v) (column sort.field) := by
  rw [Satisfies, (isOperand_bin (by decide) (by decide) sort.field rfl).skeleton, Holds, Formula.eval,
    bin, idExpr, valueExpr]
  exact lift₂_eq _ _

/-- The condition holds on the rows behind the cursor, in the direction it is
read in. -/
def HoldsBehind (direction : CursorDirection) (sorts : List SortField) (values : List FilterValue)
    (e : Expr) : Prop :=
  Satisfies (comparisonTruth column bound) e ↔
    Precedes ((sortKeys sorts (direction = .before)).map Prod.snd) (values.map bound)
      (sorts.map fun sort => column sort.field)

theorem yields_holdsBehind (direction : CursorDirection) {sorts : List SortField}
    {values : List FilterValue} (hlength : values.length = sorts.length) :
    Yields (HoldsBehind column bound direction sorts values)
      (buildCursorConditionRecursive cfg direction sorts values) := by
  induction sorts generalizing values with
  | nil => exact yields_throw _ _
  | cons sort sorts ih =>
      obtain ⟨v, values, rfl⟩ := List.exists_cons_of_length_eq_add_one hlength
      rcases sorts with _ | ⟨sort', sorts⟩
      · obtain rfl : values = [] := by simpa using hlength
        refine (yields_bind_placeholder v).map ?_
        rintro _ ⟨text, rfl⟩
        rw [HoldsBehind, satisfies_comparison_pushed]
        simp [sortKeys, Precedes]
      refine (yields_bind_placeholder v).seq fun value hvalue =>
        (ih (by simpa using hlength)).seq fun rest hrest =>
          (yields_eqPlaceholder (yields_bind_placeholder v) hvalue).map ?_
      rintro _ ⟨text', rfl⟩
      obtain ⟨text, rfl⟩ := hvalue
      rw [HoldsBehind] at hrest
      rw [HoldsBehind, satisfies_cursorAlternative, satisfies_comparison_pushed,
        satisfies_equality_pushed, hrest]
      simp [sortKeys, Precedes]

end Conditions

/-! ### The predicate of a cursor -/

/-- The request with these sorts and this cursor. -/
def cursorRequest (params : Params) (sorting : SortingParams) (values : List FilterValue)
    (direction : CursorDirection) : Params :=
  { params with
    sortBy := some sorting
    pagination := some (.cursor (.fromValues values direction)) }

/-- A SELECT of the request gets the cursor predicate `e`; its values are bound
in the step from `s` to `s'`. -/
def CursorPredicate (cfg : Config) (params : Params) (s s' : BindState) (e : Expr) : Prop :=
  ∃ parts, (dynamicParts cfg params).run s = .ok (parts, s') ∧ parts.cursor = some e

variable {params : Params} {sorting : SortingParams} {direction : CursorDirection}
  {values : List FilterValue} {s s' : BindState} {e : Expr}

theorem CursorPredicate.spec
    (h : CursorPredicate cfg (cursorRequest params sorting values direction) s s' e)
    (column : String → Option V) (bound : FilterValue → Option V) :
    values.length = sorting.sorts.length ∧
      HoldsBehind column bound direction sorting.sorts values e := by
  obtain ⟨parts, hrun, he⟩ := h
  have hparts := yields_parts_cursor rfl rfl (fun direction' hdirection hlength s e s' hrun =>
    show values.length = sorting.sorts.length ∧
        HoldsBehind column bound direction sorting.sorts values e from by
      obtain rfl : direction = direction' := Option.some.inj hdirection
      exact ⟨hlength, yields_holdsBehind column bound direction hlength s e s' hrun⟩)
    s parts s' hrun
  simp only [he] at hparts
  split at hparts
  · cases hparts
  · obtain ⟨e', he', hspec⟩ := hparts
    obtain rfl := Option.some.inj he'
    exact hspec

/-- The printed predicate, read back, picks out the rows behind the cursor. -/
theorem CursorPredicate.passesText_iff
    (h : CursorPredicate cfg (cursorRequest params sorting values direction) s s' e)
    (column : String → Option V) (bound : FilterValue → Option V) :
    PassesText (comparisonTruth column bound) e ↔
      Precedes ((sortKeys sorting.sorts (direction = .before)).map Prod.snd) (values.map bound)
        (sorting.sorts.map fun sort => column sort.field) := by
  have hspec := (h.spec column bound).2
  obtain ⟨parts, hrun, he⟩ := h
  rw [passesText_of_canonical ((yields_dynamicParts s parts s' hrun).cursor e he).canonical]
  exact hspec

/-! ### Numbered placeholders -/

/-- The cursor condition is made last, after filters and search have pushed
their values. -/
theorem exists_run_cursorCondition {parts : DynamicParts}
    (hrun : (dynamicParts cfg params).run s = .ok (parts, s')) :
    ∃ pushed : List FilterValue, (cursorCondition cfg params.sortBy params.pagination).run
      ⟨s.bindValues ++ pushed, advance cfg s.n pushed.length⟩ = .ok (parts.cursor, s') := by
  rw [dynamicParts, StateT.run_bind] at hrun
  obtain ⟨⟨filters, s₁⟩, hfilters, hrun⟩ := Core.exists_of_bind_eq_ok hrun
  rw [StateT.run_bind] at hrun
  obtain ⟨⟨search, s₂⟩, hsearch, hrun⟩ := Core.exists_of_bind_eq_ok hrun
  rw [StateT.run_bind] at hrun
  obtain ⟨⟨cursor, s₃⟩, hcursor, hrun⟩ := Core.exists_of_bind_eq_ok hrun
  obtain ⟨rfl, rfl⟩ := Prod.mk.inj (Except.ok.inj hrun)
  have hs₁ := (emits_filterExprs Display.reference params.filters).run_eq hfilters
  have hs₂ := (emits_searchCondition Display.reference params.search).run_eq hsearch
  refine ⟨filterParamsValues cfg params.filters ++ searchParamsValues params.search, ?_⟩
  rw [← List.append_assoc, List.length_append, ← advance_add]
  rw [hs₁] at hs₂
  rw [hs₂] at hcursor
  exact hcursor

/-- When the counter keeps up with the bind list, the predicate compares with
the numbers that follow. -/
theorem CursorPredicate.exists_seekExpr (hbackend : cfg.backend ≠ .mysql)
    (h : CursorPredicate cfg (cursorRequest params sorting values direction) s s' e)
    (hlength : values.length = sorting.sorts.length)
    (hcounter : s.n.toNat = s.bindValues.length + 1) (hroom : s'.bindValues.length < 255) :
    ∃ before, s'.bindValues = before ++ values ∧ sorting.sorts ≠ [] ∧
      e = seekExpr direction sorting.sorts (before.length + 1) values := by
  obtain ⟨parts, hrun, he⟩ := h
  obtain ⟨pushed, hcondition⟩ := exists_run_cursorCondition hrun
  simp only [cursorRequest, cursorCondition] at hcondition
  split at hcondition
  · rw [he] at hcondition
    cases hcondition
  rename_i hvalues
  have hsorts : sorting.sorts ≠ [] := by
    intro hnil
    rw [hnil, List.length_nil, List.length_eq_zero_iff] at hlength
    exact hvalues (by rw [hlength]; rfl)
  rw [cursorExpr_fromValues direction hlength, StateT.run_bind] at hcondition
  obtain ⟨⟨e', s₁⟩, hbuilt, hdone⟩ := Core.exists_of_bind_eq_ok hcondition
  obtain ⟨hsame, rfl⟩ := Prod.mk.inj (Except.ok.inj hdone)
  obtain rfl : e' = e := Option.some.inj (hsame.trans he)
  have hstate := (emits_cursorConditionRecursive Display.reference direction sorting.sorts
    values).run_eq hbuilt
  rw [cursorConditionValues_dollar hbackend hlength] at hstate
  have hnumber : advance cfg s.n pushed.length =
      UInt8.ofNat ((s.bindValues ++ pushed).length + 1) := by
    have hn : s.n = UInt8.ofNat (s.bindValues.length + 1) := by
      rw [← hcounter, UInt8.ofNat_toNat]
    have hadvance : advance cfg s.n pushed.length = s.n + UInt8.ofNat pushed.length := by
      rw [advance]
      split
      · rename_i hmysql
        exact absurd hmysql hbackend
      · rfl
    rw [hadvance, hn, ← UInt8.ofNat_add, List.length_append, Nat.add_right_comm]
  refine ⟨s.bindValues ++ pushed, by rw [hstate], hsorts, ?_⟩
  rw [hstate] at hroom
  rw [hnumber, run_buildCursorConditionRecursive hbackend direction hsorts hlength _ (by
    simp only [List.length_append] at hroom ⊢
    omega)] at hbuilt
  exact (Prod.mk.inj (Except.ok.inj hbuilt)).1.symm

/-- The truth of a comparison when `$k` reads the k-th bind value. -/
def numberedTruth (column : String → Option V) (bound : FilterValue → Option V)
    (binds : List FilterValue) : Expr → Truth :=
  (⟨[], fun _ => column, bound⟩ : Table Unit V).truth binds ()

/-- Read by their numbers, the placeholders have the values they were pushed
with, as long as the counter keeps up with the bind list. -/
theorem CursorPredicate.passesText_numbered (hbackend : cfg.backend ≠ .mysql)
    (h : CursorPredicate cfg (cursorRequest params sorting values direction) s s' e)
    (hcounter : s.n.toNat = s.bindValues.length + 1) (hroom : s'.bindValues.length < 255)
    (column : String → Option V) (bound : FilterValue → Option V) :
    PassesText (numberedTruth column bound s'.bindValues) e ↔
      PassesText (comparisonTruth column bound) e := by
  have hlength := (h.spec column bound).1
  rw [h.passesText_iff column bound]
  obtain ⟨before, hbinds, hsorts, he⟩ := h.exists_seekExpr hbackend hlength hcounter hroom
  obtain ⟨parts, hrun, hparts⟩ := h
  rw [passesText_of_canonical ((yields_dynamicParts s parts s' hrun).cursor e hparts).canonical,
    he, hbinds]
  rw [hbinds, List.length_append] at hroom
  have hseek := satisfies_seekExpr (t := (⟨[], fun _ => column, bound⟩ : Table Unit V)) before values
    () direction hsorts hlength (by rw [usizeBound]; omega)
  rw [key_sortKeys] at hseek
  exact hseek

/-- For the rows without NULL in the sort columns, the predicate for `After` is
true behind the cursor in lexicographic order and that for `Before` ahead of it.
So a row passes exactly one of them or is equal to the cursor. In a `$n` build
whose counter keeps up with the bind list, the predicates are the same when
`$k` is read as the k-th bind value. -/
theorem cursor_predicate_lexicographic {after before : Expr} {s₁ s₁' s₂ s₂' : BindState}
    (hafter : CursorPredicate cfg (cursorRequest params sorting values .after) s₁ s₁' after)
    (hbefore : CursorPredicate cfg (cursorRequest params sorting values .before) s₂ s₂' before)
    {column : String → Option V} {bound : FilterValue → Option V} {key cursor : List V}
    (hkey : (sorting.sorts.map fun sort => column sort.field) = key.map some)
    (hcursor : values.map bound = cursor.map some) :
    let directions := sorting.sorts.map SortField.isAsc
    let passes := PassesText (comparisonTruth column bound)
    (passes after ↔ LexLt directions cursor key) ∧
      (passes before ↔ LexLt directions key cursor) ∧
      (passes after ∨ passes before ∨ key = cursor) ∧
      ¬(passes after ∧ passes before) ∧
      (key = cursor → ¬passes after ∧ ¬passes before) ∧
      (cfg.backend ≠ .mysql →
        (s₁.n.toNat = s₁.bindValues.length + 1 → s₁'.bindValues.length < 255 →
          (PassesText (numberedTruth column bound s₁'.bindValues) after ↔ passes after)) ∧
        (s₂.n.toNat = s₂.bindValues.length + 1 → s₂'.bindValues.length < 255 →
          (PassesText (numberedTruth column bound s₂'.bindValues) before ↔ passes before))) := by
  intro directions passes
  have hbehind := hafter.passesText_iff column bound
  have hahead := hbefore.passesText_iff column bound
  have hsame : (sortKeys sorting.sorts (decide (CursorDirection.after = .before))).map Prod.snd =
      directions := by simp [sortKeys, directions]
  have hinverted : (sortKeys sorting.sorts (decide (CursorDirection.before = .before))).map
      Prod.snd = directions.map (! ·) := by simp [sortKeys, directions]
  rw [hkey, hcursor, hsame, precedes_some_iff] at hbehind
  rw [hkey, hcursor, hinverted, precedes_map_not, precedes_some_iff] at hahead
  have hlength := (hafter.spec column bound).1
  have hkeyLength : key.length = directions.length := by
    simpa [directions] using (congrArg List.length hkey).symm
  have hcursorLength : cursor.length = directions.length := by
    have := congrArg List.length hcursor
    simp at this
    simp [directions, ← this, hlength]
  refine ⟨hbehind, hahead, ?_, fun h => (hbehind.mp h.1).asymm (hahead.mp h.2), ?_,
    fun hbackend => ⟨fun hcounter hroom => ?_, fun hcounter hroom => ?_⟩⟩
  · by_cases heq : key = cursor
    · exact .inr (.inr heq)
    · rcases lexLt_or_of_ne hcursorLength hkeyLength (Ne.symm heq) with hlt | hlt
      · exact .inl (hbehind.mpr hlt)
      · exact .inr (.inl (hahead.mpr hlt))
  · rintro rfl
    exact ⟨fun h => (hbehind.mp h).irrefl, fun h => (hahead.mp h).irrefl⟩
  · exact hafter.passesText_numbered hbackend hcounter hroom column bound
  · exact hbefore.passesText_numbered hbackend hcounter hroom column bound

/-! ### Two columns -/

namespace CursorOrderExample

/-- `a ASC, b DESC` -/
def columns : SortingParams :=
  ⟨[⟨"a", .asc, .default, .safe⟩, ⟨"b", .desc, .default, .safe⟩], [], none⟩

def predicate (operatorA operatorB : BinaryOperator) : Expr :=
  bin .or (bin operatorA (idExpr "a") (valueExpr (.placeholder "$1" (.pushed (.int 1)))))
    (.nested (bin .and (bin .eq (idExpr "a") (valueExpr (.placeholder "$1" (.pushed (.int 1)))))
      (bin operatorB (idExpr "b") (valueExpr (.placeholder "$2" (.pushed (.int 2)))))))

/-- The row with `a = 1` and `b = 1`. -/
def column : String → Option ℤ
  | "a" => some 1
  | "b" => some 1
  | _ => none

def bound : FilterValue → Option ℤ
  | .int n => some n.toInt
  | _ => none

theorem cursorPredicate_predicate (direction : CursorDirection) :
    CursorPredicate (Example.build .postgres)
      (cursorRequest Params.default columns [.int 1, .int 2] direction) ⟨[], 1⟩
      ⟨[.int 1, .int 2], 3⟩
      (predicate (cursorOperator direction true) (cursorOperator direction false)) := by
  cases direction
  · exact ⟨⟨[], [], some _⟩, rfl, rfl⟩
  · exact ⟨⟨[], [], some _⟩, rfl, rfl⟩

end CursorOrderExample

open CursorOrderExample in
/-- `(1, 1)` comes after `(1, 2)` in `a ASC, b DESC`. -/
theorem cursor_predicate_two_columns :
    PassesText (comparisonTruth column bound) (predicate .gt .lt) ∧
      ¬PassesText (comparisonTruth column bound) (predicate .lt .gt) ∧
      PassesText (numberedTruth column bound [.int 1, .int 2]) (predicate .gt .lt) := by
  obtain ⟨hafter, -, -, hone, -, hnumbered⟩ :=
    @cursor_predicate_lexicographic ℤ _ _ _ _ _ _ _ _ _ _ _ (cursorPredicate_predicate .after)
      (cursorPredicate_predicate .before) column bound [1, 1] [1, 2] rfl rfl
  have hpasses := hafter.mpr (by simp [columns, LexLt, SortField.isAsc, SortDirection.isAsc])
  exact ⟨hpasses, fun h => hone ⟨hpasses, h⟩,
    ((hnumbered (by decide)).1 (by decide) (by decide)).mpr hpasses⟩

end SqlxData.Paging
