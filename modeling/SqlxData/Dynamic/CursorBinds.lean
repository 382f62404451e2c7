import SqlxData.Dynamic.Emits
import SqlxData.Dynamic.WhereText
import SqlxData.Sqlparser.Reference

/-!
The binds of a cursor condition where a placeholder cannot be read twice. The
text has the two placeholders of a field side by side; the second value is
pushed behind the values of all the fields that follow.
-/

namespace SqlxData.Dynamic

open SqlxData.Sqlparser

variable {cfg : Config}

/-! ### Placeholders and the columns they are compared with -/

/-- Read from the left, the names in `name OP placeholder`. -/
def comparedNames : List Tok → List String
  | .word name :: .word _ :: .placeholder _ _ :: ts => name :: comparedNames ts
  | _ :: ts => comparedNames ts
  | [] => []

/-- Two words in front, so that a word ahead of them is no compared name. -/
def StartsWithWords (ts : List Tok) : Prop := ∃ a b us, ts = .word a :: .word b :: us

theorem comparedNames_word_cons (w : String) {ts : List Tok} (h : StartsWithWords ts) :
    comparedNames (.word w :: ts) = comparedNames ts := by
  obtain ⟨a, b, us, rfl⟩ := h
  rw [comparedNames]
  simp

theorem comparedNames_append_word (ts : List Tok) (w : String) :
    comparedNames (ts ++ [.word w]) = comparedNames ts := by
  fun_induction comparedNames ts with
  | case1 name op text origin ts ih =>
      rw [← ih]
      rfl
  | case2 t ts hno ih =>
      rw [← ih, List.cons_append, comparedNames]
      -- a placeholder behind two words is not the word at the end
      rintro name op text origin us rfl hts
      rcases ts with _ | ⟨t₁, _ | ⟨t₂, ts⟩⟩
      · simp at hts
      · simp at hts
      · simp only [List.cons_append, List.cons.injEq] at hts
        obtain ⟨rfl, rfl, -⟩ := hts
        exact hno name op text origin ts rfl rfl
  | case3 => rfl

/-- All fields but the last are compared twice. -/
def doubledNames : List SortField → List String
  | [] => []
  | [sort] => [sort.field]
  | sort :: sort' :: sorts => sort.field :: sort.field :: doubledNames (sort' :: sorts)

theorem getElem?_doubledNames (sorts : List SortField) {j : ℕ} (hj : j < 2 * sorts.length - 1) :
    (doubledNames sorts)[j]? = sorts[j / 2]?.map SortField.field := by
  fun_induction doubledNames sorts generalizing j with
  | case1 => simp at hj
  | case2 sort =>
      obtain rfl : j = 0 := by simp at hj; omega
      rfl
  | case3 sort sort' sorts ih =>
      rcases j with _ | _ | j
      · rfl
      · rfl
      · have hhalf : (j + 2) / 2 = j / 2 + 1 := by omega
        simp only [List.getElem?_cons_succ, hhalf]
        exact ih (by simp at hj ⊢; omega)

section Names

variable (D : Display)

/-- The condition shows the fields with their placeholders side by side. -/
def ShowsDoubled (sorts : List SortField) (e : Expr) : Prop :=
  StartsWithWords (D.expr e) ∧ comparedNames (D.expr e) = doubledNames sorts

theorem expr_bin (op : BinaryOperator) (l r : Expr) :
    D.expr (bin op l r) = D.expr l ++ .word (" " ++ op.symbol ++ " ") :: D.expr r :=
  D.expr_binaryOp l op r

theorem expr_comparison (op : BinaryOperator) (name text : String) (v : FilterValue) :
    D.expr (bin op (idExpr name) (valueExpr (.placeholder text (.pushed v)))) =
      [.word name, .word (" " ++ op.symbol ++ " "), .placeholder text (.pushed v)] := by
  rw [expr_bin, idExpr, D.expr_identifier, D.ident_new, valueExpr, D.expr_placeholder]
  rfl

theorem showsDoubled_nested {sorts : List SortField} {e : Expr} (h : ShowsDoubled D sorts e) :
    ShowsDoubled D sorts (.nested e) := by
  obtain ⟨⟨a, b, us, hwords⟩, hnames⟩ := h
  refine ⟨⟨"(", a, .word b :: us ++ [.word ")"], ?_⟩, ?_⟩
  · rw [D.expr_nested, hwords]
    rfl
  · rw [D.expr_nested, comparedNames_append_word, comparedNames_word_cons "(" ⟨a, b, us, hwords⟩,
      hnames]

theorem showsDoubled_alternative (direction : CursorDirection) (sort : SortField) {sort' : SortField}
    {sorts : List SortField} (text text' : String) (v : FilterValue) {rest : Expr}
    (h : ShowsDoubled D (sort' :: sorts) (if sorts.isEmpty then rest else .nested rest)) :
    ShowsDoubled D (sort :: sort' :: sorts)
      (cursorAlternative direction sort (valueExpr (.placeholder text (.pushed v)))
        (valueExpr (.placeholder text' (.pushed v))) rest sorts.isEmpty) := by
  obtain ⟨hwords, hnames⟩ := h
  rw [cursorAlternative]
  generalize (if sorts.isEmpty then rest else .nested rest) = wrapped at hwords hnames ⊢
  have hequal : ∀ ts, comparedNames (.word sort.field ::
      .word (" " ++ BinaryOperator.eq.symbol ++ " ") :: .placeholder text' (.pushed v) :: ts) =
        sort.field :: comparedNames ts := fun ts => by rw [comparedNames]
  rw [ShowsDoubled, or, expr_bin, expr_comparison, D.expr_nested, and, expr_bin, expr_comparison]
  refine ⟨⟨_, _, _, rfl⟩, ?_⟩
  simp only [List.cons_append, List.nil_append]
  rw [comparedNames, comparedNames_word_cons _ ⟨_, _, _, rfl⟩, comparedNames_word_cons _ ⟨_, _, _, rfl⟩,
    hequal, ← List.cons_append, comparedNames_append_word, comparedNames_word_cons _ hwords, hnames]
  rfl

theorem yields_cursor_names (direction : CursorDirection) (sorts : List SortField)
    (values : List FilterValue) :
    Yields (ShowsDoubled D sorts) (buildCursorConditionRecursive cfg direction sorts values) := by
  induction sorts generalizing values with
  | nil => exact yields_throw _ _
  | cons sort sorts ih =>
      rcases values with _ | ⟨v, values⟩
      · exact yields_throw _ _
      rcases sorts with _ | ⟨sort', sorts⟩
      · refine (yields_bind_placeholder v).map ?_
        rintro _ ⟨text, rfl⟩
        rw [ShowsDoubled, expr_comparison]
        exact ⟨⟨_, _, _, rfl⟩, rfl⟩
      refine (yields_bind_placeholder v).seq fun value hvalue => (ih values).seq fun rest hrest =>
        (yields_eqPlaceholder (yields_bind_placeholder v) hvalue).map ?_
      rintro _ ⟨text', rfl⟩
      obtain ⟨text, rfl⟩ := hvalue
      have hwrapped : ShowsDoubled D (sort' :: sorts)
          (if sorts.isEmpty then rest else .nested rest) := by
        split
        · exact hrest
        · exact showsDoubled_nested D hrest
      exact showsDoubled_alternative D direction sort text text' v hwrapped

end Names

/-! ### The values pushed -/

/-- The values, and back again without the last. -/
def mirrored (values : List FilterValue) : List FilterValue := values ++ values.dropLast.reverse

theorem cursorConditionValues_dollar (hbackend : cfg.backend ≠ .mysql) {sorts : List SortField}
    {values : List FilterValue} (hlength : values.length = sorts.length) :
    cursorConditionValues cfg sorts values = values := by
  fun_induction cursorConditionValues cfg sorts values with
  | case1 values =>
      obtain rfl : values = [] := by simpa using hlength
      rfl
  | case2 => rfl
  | case3 sort v values =>
      obtain rfl : values = [] := by simpa using hlength
      rfl
  | case4 sort sort' sorts v values ih =>
      rw [ih (by simpa using hlength), if_neg hbackend, List.append_nil]

theorem cursorConditionValues_mysql (hbackend : cfg.backend = .mysql) {sorts : List SortField}
    {values : List FilterValue} (hlength : values.length = sorts.length) :
    cursorConditionValues cfg sorts values = mirrored values := by
  fun_induction cursorConditionValues cfg sorts values with
  | case1 values =>
      obtain rfl : values = [] := by simpa using hlength
      rfl
  | case2 => simp at hlength
  | case3 sort v values =>
      obtain rfl : values = [] := by simpa using hlength
      rfl
  | case4 sort sort' sorts v values ih =>
      obtain ⟨w, values, rfl⟩ := List.exists_cons_of_length_eq_add_one (by simpa using hlength)
      rw [ih (by simpa using hlength), if_pos hbackend, mirrored, mirrored, List.dropLast_cons_cons,
        List.reverse_cons, ← List.append_assoc]
      rfl

/-- Half the index finds the pushed value exactly when there is only one. -/
theorem mirrored_halves_iff (values : List FilterValue) :
    (∀ j < 2 * values.length - 1, (mirrored values)[j]? = values[j / 2]?) ↔
      ∀ v ∈ values, ∀ w ∈ values, v = w := by
  constructor
  · intro h
    have hfirst : ∀ j < values.length, values[j]? = values[0]? := by
      intro j hj
      induction j using Nat.strongRecOn with
      | _ j ih =>
          have hhalf := h j (by omega)
          rw [mirrored, List.getElem?_append_left hj] at hhalf
          by_cases hzero : j = 0
          · rw [hzero]
          · rw [hhalf, ih (j / 2) (by omega) (by omega)]
    intro v hv w hw
    obtain ⟨i, hi, rfl⟩ := List.getElem_of_mem hv
    obtain ⟨j, hj, rfl⟩ := List.getElem_of_mem hw
    have hsame := (hfirst i hi).trans (hfirst j hj).symm
    rwa [List.getElem?_eq_getElem hi, List.getElem?_eq_getElem hj, Option.some.injEq] at hsame
  · intro h j hj
    have hlength : (mirrored values).length = 2 * values.length - 1 := by
      simp only [mirrored, List.length_append, List.length_reverse, List.length_dropLast]
      omega
    have hmem : ∀ v ∈ mirrored values, v ∈ values := by
      intro v hv
      rcases List.mem_append.mp hv with hv | hv
      · exact hv
      · exact (List.dropLast_sublist values).subset (List.mem_reverse.mp hv)
    have hj' : j < (mirrored values).length := by omega
    have hhalf : j / 2 < values.length := by omega
    rw [List.getElem?_eq_getElem hj', List.getElem?_eq_getElem hhalf]
    exact congrArg some (h _ (hmem _ (List.getElem_mem hj')) _ (List.getElem_mem hhalf))

/-! ### The binds of the printed condition -/

/-- In the `?` build, the j-th placeholder of the cursor condition of each
SELECT is compared with the field j/2. The j-th value pushed for the cursor is
the cursor value of this field, for all j, if and only if all the cursor values
are equal. -/
theorem cursor_binds_line_up_iff (hbackend : cfg.backend = .mysql) {D : Display}
    {parser : Core.Parser} {baseSql : List Char} {q : Query} {params : Params}
    {sorting : SortingParams} {values : List FilterValue} {direction : CursorDirection}
    {initialBinds : List FilterValue} {built : BuiltSql} (hvalues : values ≠ [])
    (hsortBy : params.sortBy = some sorting)
    (hpagination : params.pagination = some (.cursor (.fromValues values direction)))
    (hlength : values.length = sorting.sorts.length)
    (hparse : Core.parseSql parser baseSql = .ok (some (.query q)))
    (hbuild : buildDynamicSql cfg D parser baseSql params initialBinds = .ok built) :
    ∃ q', PrintedFrom D q' built.sql ∧
      List.Forall₂ (fun select select' => ∃ parts s s' e pushed,
          (dynamicParts cfg params).run s = .ok (parts, s') ∧
          select' = { select with
            selection := withDynamicWhere select.selection parts.combined } ∧
          parts.cursor = some e ∧
          s'.bindValues = s.bindValues ++ (filterParamsValues cfg params.filters ++
            searchParamsValues params.search) ++ pushed ∧
          (∀ j < 2 * values.length - 1, (comparedNames (D.expr e))[j]? =
            sorting.sorts[j / 2]?.map SortField.field) ∧
          ((∀ j < 2 * values.length - 1, pushed[j]? = values[j / 2]?) ↔
            ∀ v ∈ values, ∀ w ∈ values, v = w))
        (selects q.body) (selects q'.body) := by
  have hparams : params.isEmpty = false := by simp [Params.isEmpty, hpagination]
  obtain ⟨q', hsql, hselects, -⟩ := exists_extended hparse hparams hbuild
  refine ⟨q', hsql, hselects.imp ?_⟩
  rintro select select' ⟨parts, ⟨s, s', hrun⟩, rfl⟩
  have hcursor : (CursorParams.fromValues values direction).isEmpty = false := by
    simpa [CursorParams.isEmpty, CursorParams.fromValues] using hvalues
  have hparts := yields_parts_cursor hsortBy hpagination
    (fun direction' _ _ => yields_cursor_names D direction' sorting.sorts values) s parts s' hrun
  simp only [hcursor, Bool.false_eq_true, if_false] at hparts
  obtain ⟨e, he, -, hnames⟩ := hparts
  refine ⟨parts, s, s', e, mirrored values, hrun, rfl, he, ?_, fun j hj => ?_,
    mirrored_halves_iff values⟩
  · have hpushed : cursorValues cfg (some sorting) (.fromValues values direction) =
        mirrored values := cursorConditionValues_mysql hbackend hlength
    rw [(emits_dynamicParts D params).run_eq hrun, selectValues, hsortBy, hpagination, paginationValues,
      if_neg (by simp [hcursor]), hpushed]
    simp only [List.append_assoc]
  · rw [hnames]
    exact getElem?_doubledNames sorting.sorts (hlength ▸ hj)

/-! ### Two fields -/

namespace CursorBindsExample

open Reference

def users : Query := simpleQuery (.select (simpleSelect [.wildcard] "users" none))

/-- `sort().asc("a").asc("b")` and `cursor().after(..).and_field(..)` -/
def request (v w : Int64) : Params :=
  { Params.default with
    sortBy := some ⟨[⟨"a", .asc, .default, .safe⟩, ⟨"b", .asc, .default, .safe⟩], [], none⟩
    pagination := some (.cursor (.fromValues [.int v, .int w] .after)) }

end CursorBindsExample

open CursorBindsExample Example Reference

/-- The second placeholder is compared with `a` and gets the value of `b`, the
third the other way round. -/
theorem cursor_binds_crossed :
    ∃ built, buildDynamicSql (build .mysql) Display.reference (parserOf users) (text users)
        (request 1 2) [] = .ok built ∧
      built.sql =
        "SELECT * FROM users WHERE a > ? OR (a = ? AND b > ?) ORDER BY a ASC, b ASC".toList ∧
      built.bindValues = [.int 1, .int 2, .int 1] ∧
      ¬∀ j < 3, built.bindValues[j]? = [FilterValue.int 1, .int 2][j / 2]? := by
  refine ⟨_, rfl, by decide, by decide, fun h => ?_⟩
  exact absurd (h 1 (by decide)) (by decide)

/-- Equal values cannot be mixed up. -/
theorem cursor_binds_kept :
    ∃ q', PrintedFrom Display.reference q'
        "SELECT * FROM users WHERE a > ? OR (a = ? AND b > ?) ORDER BY a ASC, b ASC".toList ∧
      List.Forall₂ (fun select select' => ∃ parts s s' e pushed,
          (dynamicParts (build .mysql) (request 5 5)).run s = .ok (parts, s') ∧
          select' = { select with
            selection := withDynamicWhere select.selection parts.combined } ∧
          parts.cursor = some e ∧
          s'.bindValues = s.bindValues ++ ([] ++ []) ++ pushed ∧
          (∀ j < 3, (comparedNames (Display.reference.expr e))[j]? =
            [SortField.mk "a" .asc .default .safe, ⟨"b", .asc, .default, .safe⟩][j / 2]?.map
              SortField.field) ∧
          ((∀ j < 3, pushed[j]? = [FilterValue.int 5, .int 5][j / 2]?) ↔
            ∀ v ∈ [FilterValue.int 5, .int 5], ∀ w ∈ [FilterValue.int 5, .int 5], v = w))
        (selects users.body) (selects q'.body) :=
  @cursor_binds_line_up_iff (build .mysql) rfl Display.reference (parserOf users) (text users) users
    (request 5 5) _ [.int 5, .int 5] .after [] ⟨_, [.int 5, .int 5, .int 5]⟩ (by decide) rfl rfl rfl
    rfl (by decide)

end SqlxData.Dynamic
