import SqlxData.Dynamic.BindOrigins
import SqlxData.Dynamic.PlainWords
import SqlxData.Params.Cursor

/-!
The statement of a cursor page: what is built from a base SELECT without WHERE
and without placeholders, for a request that brings a sort list, a limit and a
cursor. Builds whose placeholder is `$n` only.
-/

namespace SqlxData.Dynamic

open SqlxData.Sqlparser NumberedText

variable {cfg : Config}

/-- The request for a page: sort list, rows a page, cursor. -/
def pageRequest (sorting : SortingParams) (limit : UInt32) (cursor : CursorParams) : Params :=
  { Params.default with
    sortBy := some sorting
    limit := some limit
    pagination := some (.cursor cursor) }

/-- The cursors the builder methods give for `k` sort fields. -/
inductive PageCursor (k : ℕ) : CursorParams → Prop
  | first : PageCursor k .firstPage
  | beyond (direction : CursorDirection) (values : List FilterValue) (h : values.length = k) :
      PageCursor k (.fromValues values direction)

/-! ### The page statement -/

def seekPlaceholder (n : ℕ) (v : FilterValue) : Expr :=
  valueExpr (.placeholder ("$" ++ toString n) (.pushed v))

/-- The cursor condition, its placeholders numbered from `n` on. -/
def seekExpr (direction : CursorDirection) : List SortField → ℕ → List FilterValue → Expr
  | [sort], n, v :: _ =>
      bin (cursorOperator direction sort.isAsc) (idExpr sort.field) (seekPlaceholder n v)
  | sort :: sort' :: sorts, n, v :: values =>
      cursorAlternative direction sort (seekPlaceholder n v) (seekPlaceholder n v)
        (seekExpr direction (sort' :: sorts) (n + 1) values) sorts.isEmpty
  | _, _, _ => .wildcard

def seekWhere (sorts : List SortField) (cursor : CursorParams) : Option Expr :=
  cursor.direction.map (seekExpr · sorts 1 cursor.values)

def pageLimit (limit : UInt32) : LimitClause :=
  .limitOffset (some (numberExpr (limit.toNat + 1))) none []

def pageQuery (q : Query) (s : Select) (sorts : List SortField) (limit : UInt32)
    (cursor : CursorParams) : Query :=
  { q with
    body := .select { s with selection := seekWhere sorts cursor }
    orderBy := some (orderByOf sorts (cursor.direction = some .before))
    limitClause := some (pageLimit limit) }

/-! ### The builder emits it -/

theorem run_bind_seekPlaceholder (hbackend : cfg.backend ≠ .mysql) (v : FilterValue)
    (binds : List FilterValue) {n : ℕ} (hn : n + 1 < 256) :
    (bind cfg v).run ⟨binds, UInt8.ofNat n⟩ =
      .ok (seekPlaceholder n v, ⟨binds ++ [v], UInt8.ofNat (n + 1)⟩) := by
  have hnumber : (UInt8.ofNat n).toNat = n := by simp; omega
  have hnext : addU8 cfg (UInt8.ofNat n) 1 = .ok (UInt8.ofNat (n + 1)) := by
    rw [addU8, if_neg (by simp only [hnumber, UInt8.toNat_one]; omega), UInt8.ofNat_add]
    rfl
  have hrun : (bind cfg v).run ⟨binds, UInt8.ofNat n⟩ =
      (nextPlaceholder cfg (UInt8.ofNat n)).bind fun p =>
        .ok (valueExpr (.placeholder p.1 (.pushed v)), ⟨binds ++ [v], p.2⟩) := rfl
  rw [hrun]
  cases hcase : cfg.backend with
  | mysql => exact absurd hcase hbackend
  | sqlite | postgres =>
      simp only [nextPlaceholder, hcase, hnext, hnumber]
      rfl

theorem run_buildCursorConditionRecursive (hbackend : cfg.backend ≠ .mysql)
    (direction : CursorDirection) {sorts : List SortField} {values : List FilterValue}
    (hsorts : sorts ≠ []) (hlength : values.length = sorts.length) (binds : List FilterValue)
    {n : ℕ} (hn : n + sorts.length < 256) :
    (buildCursorConditionRecursive cfg direction sorts values).run ⟨binds, UInt8.ofNat n⟩ =
      .ok (seekExpr direction sorts n values,
        ⟨binds ++ values, UInt8.ofNat (n + sorts.length)⟩) := by
  induction sorts generalizing values binds n with
  | nil => exact absurd rfl hsorts
  | cons sort sorts ih =>
      obtain ⟨v, values, rfl⟩ := List.exists_cons_of_length_eq_add_one hlength
      have hfirst := run_bind_seekPlaceholder hbackend v binds
        (show n + 1 < 256 by simp only [List.length_cons] at hn; omega)
      rcases sorts with _ | ⟨sort', sorts⟩
      · obtain rfl : values = [] := by simpa using hlength
        simp only [buildCursorConditionRecursive, StateT.run_bind, hfirst]
        rfl
      · have hrest := ih (by simp) (by simpa using hlength) (binds ++ [v])
          (show n + 1 + (sort' :: sorts).length < 256 by simp at hn ⊢; omega)
        simp only [buildCursorConditionRecursive, StateT.run_bind, hfirst]
        simp only [Bind.bind, Except.bind, hrest, eqPlaceholder, if_neg hbackend]
        simp only [List.append_assoc, List.singleton_append, List.length_cons, seekExpr]
        rw [Nat.add_right_comm n 1, Nat.add_assoc]
        rfl

theorem cursorExpr_fromValues {sorting : SortingParams} (direction : CursorDirection)
    {values : List FilterValue} (hlength : values.length = sorting.sorts.length) :
    cursorExpr cfg (some sorting) (.fromValues values direction) =
      buildCursorConditionRecursive cfg direction sorting.sorts values := by
  have hlen : ¬sorting.sorts.length ≠ (CursorParams.fromValues values direction).len :=
    fun h => h hlength.symm
  have herror : ¬(CursorParams.fromValues values direction).hasError = true := by
    simp [CursorParams.hasError, CursorParams.fromValues]
  simp only [cursorExpr, if_neg herror, if_neg hlen]
  simp only [CursorParams.fromValues, buildOrBasedCursorCondition]
  split
  · rename_i hone
    rw [hone]
    rfl
  · rfl

theorem run_cursorExpr (hbackend : cfg.backend ≠ .mysql) {sorting : SortingParams}
    (hsorts : sorting.sorts ≠ []) (hcount : sorting.sorts.length ≤ 10)
    (direction : CursorDirection) {values : List FilterValue}
    (hlength : values.length = sorting.sorts.length) :
    (cursorExpr cfg (some sorting) (.fromValues values direction)).run ⟨[], 1⟩ =
      .ok (seekExpr direction sorting.sorts 1 values,
        ⟨values, UInt8.ofNat (1 + sorting.sorts.length)⟩) := by
  have hrun := run_buildCursorConditionRecursive hbackend direction hsorts hlength []
    (show 1 + sorting.sorts.length < 256 by omega)
  rw [List.nil_append] at hrun
  rw [cursorExpr_fromValues direction hlength]
  exact hrun

theorem run_processSetExpr (hbackend : cfg.backend ≠ .mysql) {sorting : SortingParams}
    (hsorts : sorting.sorts ≠ []) (hcount : sorting.sorts.length ≤ 10) {limit : UInt32}
    {cursor : CursorParams} (hcursor : PageCursor sorting.sorts.length cursor) {s : Select}
    (hselection : s.selection = none) :
    ∃ n, (processSetExpr cfg (pageRequest sorting limit cursor) (.select s)).run ⟨[], 1⟩ =
      .ok (.select { s with selection := seekWhere sorting.sorts cursor }, ⟨cursor.values, n⟩) := by
  cases hcursor with
  | first =>
      refine ⟨1, ?_⟩
      obtain ⟨distinct, top, projection, tables, selection, groupBy, having, namedWindow, rest⟩ := s
      obtain rfl : selection = none := hselection
      rfl
  | beyond direction values h =>
      refine ⟨UInt8.ofNat (1 + sorting.sorts.length), ?_⟩
      have hempty : (CursorParams.fromValues values direction).isEmpty = false := by
        obtain ⟨sort, sorts, hcons⟩ := List.exists_cons_of_ne_nil hsorts
        obtain ⟨v, values, rfl⟩ := List.exists_cons_of_length_eq_add_one (h.trans (by rw [hcons]; rfl))
        rfl
      have hrun := run_cursorExpr hbackend hsorts hcount direction h
      have hcondition : (cursorCondition cfg (some sorting)
          (some (.cursor (.fromValues values direction)))).run ⟨[], 1⟩ =
          .ok (some (seekExpr direction sorting.sorts 1 values),
            ⟨values, UInt8.ofNat (1 + sorting.sorts.length)⟩) := by
        simp only [cursorCondition, hempty, Bool.false_eq_true, if_false, StateT.run_bind, hrun]
        rfl
      have hparts : (dynamicParts cfg (pageRequest sorting limit
          (.fromValues values direction))).run ⟨[], 1⟩ =
          .ok (⟨[], [], some (seekExpr direction sorting.sorts 1 values)⟩,
            ⟨values, UInt8.ofNat (1 + sorting.sorts.length)⟩) := by
        simp only [dynamicParts, pageRequest, Params.default, filterExprs, searchCondition,
          StateT.run_bind, pure_bind, hcondition]
        rfl
      simp only [processSetExpr, processSelect, StateT.run_bind, hparts]
      simp only [Bind.bind, Except.bind, hselection]
      rfl

/-- The statement of the page and its bind values. -/
theorem dynamicStatement_pageRequest (hbackend : cfg.backend ≠ .mysql) {sorting : SortingParams}
    (hsorts : sorting.sorts ≠ []) (hcount : sorting.sorts.length ≤ 10) {limit : UInt32}
    (hlimit : limit.toNat + 1 < 2 ^ 32) {cursor : CursorParams}
    (hcursor : PageCursor sorting.sorts.length cursor) {q : Query} {s : Select}
    (hbody : q.body = .select s) (hselection : s.selection = none) :
    dynamicStatement cfg (.query q) (pageRequest sorting limit cursor) [] 0 =
      .ok (.query (pageQuery q s sorting.sorts limit cursor), cursor.values) := by
  have hstart : addU8 cfg (startIndex ([] : List FilterValue).length 0) 1 = .ok 1 := by
    rw [addU8, if_neg (by simp [startIndex])]
    rfl
  obtain ⟨n, hrun⟩ := @run_processSetExpr cfg hbackend sorting hsorts hcount limit cursor hcursor s
    hselection
  have hactual : addU32 cfg limit 1 = .ok (limit + 1) := by
    rw [addU32, if_neg (by simp only [UInt32.toNat_one]; omega)]
  have hvalue : (limit + 1).toNat = limit.toNat + 1 := by
    rw [UInt32.toNat_add, UInt32.toNat_one]
    omega
  have hclause : limitClauseOf cfg (pageRequest sorting limit cursor) q.limitClause =
      .ok (some (pageLimit limit)) := by
    simp only [limitClauseOf, limitExprOf, pageRequest, Params.limitPlusOne, hactual, hvalue,
      Bind.bind, Except.bind]
    rfl
  have horder : orderByFor (pageRequest sorting limit cursor) q.orderBy =
      some (orderByOf sorting.sorts (cursor.direction = some .before)) := by
    have hnotEmpty : (!sorting.sorts.isEmpty) = true := by
      cases hcase : sorting.sorts with
      | nil => exact absurd hcase hsorts
      | cons => rfl
    simp only [orderByFor, pageRequest, hnotEmpty, if_true]
    rfl
  have hnonempty : (pageRequest sorting limit cursor).isEmpty = false := rfl
  simp only [dynamicStatement, hnonempty, Bool.false_eq_true, if_false, processQuery, hstart,
    hbody, Bind.bind, Except.bind, hrun, hclause, horder]
  rfl

/-! ### Its text -/

section Text

variable (D : Display)

theorem plainWords_seekPlaceholder (n : ℕ) (v : FilterValue) :
    PlainWords (D.expr (seekPlaceholder n v)) := by
  rw [seekPlaceholder, valueExpr, D.expr_placeholder]
  exact plainWords_cons.mpr ⟨trivial, by simp [PlainWords]⟩

theorem plainWords_cursorComparison (direction : CursorDirection) {sort : SortField}
    (hfield : placeholderNumbers sort.field.toList = []) (n : ℕ) (v : FilterValue) :
    PlainWords (D.expr (bin (cursorOperator direction sort.isAsc) (idExpr sort.field)
      (seekPlaceholder n v))) := by
  refine plainWords_bin D (plainWords_idExpr D hfield) (plainWords_seekPlaceholder D n v) ?_
  cases direction <;> cases sort.isAsc <;> decide

theorem plainWords_seekExpr (direction : CursorDirection) {sorts : List SortField}
    (hfields : PlainFields sorts) (n : ℕ) (values : List FilterValue) :
    PlainWords (D.expr (seekExpr direction sorts n values)) := by
  fun_induction seekExpr direction sorts n values with
  | case1 sort n v values =>
      exact plainWords_cursorComparison D direction (hfields sort (by simp)) n v
  | case2 sort sort' sorts n v values ih =>
      have hfield := hfields sort (by simp)
      have hrest := ih fun s hs => hfields s (by simp [List.mem_cons.mp hs])
      refine plainWords_bin D (plainWords_cursorComparison D direction hfield n v)
        (plainWords_nested D (plainWords_bin D (plainWords_bin D (plainWords_idExpr D hfield)
          (plainWords_seekPlaceholder D n v) (by decide)) ?_ (by decide))) (by decide)
      split
      · exact hrest
      · exact plainWords_nested D hrest
  | case3 =>
      rw [D.expr_wildcard]
      decide

theorem plainWords_pageLimit (limit : UInt32) :
    PlainWords (D.limitClause (some (pageLimit limit))) := by
  obtain ⟨rest, hclause, hrest⟩ := D.limitClause_limitOffset
    (some (numberExpr (limit.toNat + 1))) none []
  obtain rfl := hrest ⟨rfl, by simp⟩
  rw [pageLimit, hclause]
  simp only [Option.elim, List.append_nil]
  exact plainWords_cons.mpr ⟨by decide, plainWords_numberExpr D _⟩

/-- The words of the page statement are those of the base, the field names and
the builder's own. -/
theorem plainWords_pageQuery {q : Query} {s : Select} (hbody : q.body = .select s)
    (hplain : PlainWords (D.query q)) {sorts : List SortField} (hfields : PlainFields sorts)
    (limit : UInt32) (cursor : CursorParams) :
    PlainWords (D.query (pageQuery q s sorts limit cursor)) := by
  rw [D.query_eq, hbody, D.setExpr_select] at hplain
  simp only [plainWords_append, plainWords_cons] at hplain
  obtain ⟨⟨⟨⟨⟨hwith, hbody⟩, -⟩, -⟩, hfetch⟩, hrest⟩ := hplain
  have hwhere : PlainWords ((seekWhere sorts cursor).elim [] fun e => .word " WHERE " :: D.expr e) := by
    rw [seekWhere]
    cases cursor.direction with
    | none => simp [PlainWords]
    | some direction =>
        exact plainWords_cons.mpr ⟨by decide, plainWords_seekExpr D direction hfields 1 _⟩
  have horder := plainWords_orderByOf D hfields (cursor.direction = some .before)
  have hlimit := plainWords_pageLimit D limit
  rw [D.query_eq, pageQuery, D.setExpr_select]
  simp only [plainWords_append, plainWords_cons]
  tauto

/-! ### Its placeholders -/

def dollarMark (n : ℕ) (v : FilterValue) : Mark := ⟨"$" ++ toString n, .pushed v⟩

/-- The placeholders of the cursor condition: all but the last are shown
twice. -/
def seekMarks : ℕ → List FilterValue → List Mark
  | _, [] => []
  | n, [v] => [dollarMark n v]
  | n, v :: w :: vs => dollarMark n v :: dollarMark n v :: seekMarks (n + 1) (w :: vs)

theorem marks_seekPlaceholder (n : ℕ) (v : FilterValue) :
    marks (D.expr (seekPlaceholder n v)) = [dollarMark n v] := by
  rw [seekPlaceholder, valueExpr, D.expr_placeholder]
  rfl

theorem marks_seekExpr (direction : CursorDirection) {sorts : List SortField} (n : ℕ)
    {values : List FilterValue} (hlength : values.length = sorts.length) :
    marks (D.expr (seekExpr direction sorts n values)) = seekMarks n values := by
  fun_induction seekExpr direction sorts n values with
  | case1 sort n v values =>
      obtain rfl : values = [] := by simpa using hlength
      rw [marks_bin, marks_idExpr, List.nil_append, marks_seekPlaceholder]
      rfl
  | case2 sort sort' sorts n v values ih =>
      have hrest := ih (by simpa using hlength)
      have hwrapped : marks (D.expr (if sorts.isEmpty
          then seekExpr direction (sort' :: sorts) (n + 1) values
          else .nested (seekExpr direction (sort' :: sorts) (n + 1) values))) =
          seekMarks (n + 1) values := by
        split <;> simp [hrest]
      obtain ⟨w, values, rfl⟩ := List.exists_cons_of_length_eq_add_one (by simpa using hlength)
      rw [cursorAlternative, or, marks_bin, marks_bin, marks_nested, and, marks_bin, marks_bin,
        hwrapped]
      simp only [marks_idExpr, List.nil_append, marks_seekPlaceholder]
      rfl
  | case3 sorts n values hone hmore =>
      rcases sorts with _ | ⟨sort, _ | ⟨sort', sorts⟩⟩
      · rw [D.expr_wildcard, List.eq_nil_of_length_eq_zero hlength]
        rfl
      · obtain ⟨v, values, rfl⟩ := List.exists_cons_of_length_eq_add_one hlength
        exact absurd rfl (hone sort v values rfl)
      · obtain ⟨v, values, rfl⟩ := List.exists_cons_of_length_eq_add_one hlength
        exact absurd rfl (hmore sort sort' sorts v values rfl)

theorem mem_seekMarks {n : ℕ} {values : List FilterValue} {m : Mark}
    (hm : m ∈ seekMarks n values) : ∃ k < n + values.length, m.text = "$" ++ toString k := by
  fun_induction seekMarks n values with
  | case1 => simp at hm
  | case2 n v =>
      obtain rfl := List.mem_singleton.mp hm
      exact ⟨n, by simp, rfl⟩
  | case3 n v w vs ih =>
      simp only [List.mem_cons] at hm
      rcases hm with rfl | rfl | hm
      · exact ⟨n, by simp, rfl⟩
      · exact ⟨n, by simp, rfl⟩
      · obtain ⟨k, hk, htext⟩ := ih (by simpa using hm)
        exact ⟨k, by simp at hk ⊢; omega, htext⟩

/-- The numbers are first used in the order of the values. -/
theorem firstUse_seekMarks {seen : List ℕ} {n : ℕ} {values : List FilterValue}
    (hseen : ∀ i ∈ seen, i < n) (hn : n + values.length < usizeBound) :
    firstUse seen ((seekMarks n values).flatMap fun m => placeholderNumbers m.text.toList) =
      seen ++ List.range' n values.length := by
  fun_induction seekMarks n values generalizing seen with
  | case1 => simp [firstUse]
  | case2 n v =>
      have hfresh : n ∉ seen := fun h => (hseen n h).false
      have hnumber : placeholderNumbers (dollarMark n v).text.toList = [n] :=
        placeholderNumbers_dollar (by simp at hn; omega)
      simp [hnumber, firstUse, hfresh]
  | case3 n v w vs ih =>
      have hfresh : n ∉ seen := fun h => (hseen n h).false
      have hnumber : placeholderNumbers (dollarMark n v).text.toList = [n] :=
        placeholderNumbers_dollar (by simp at hn; omega)
      have hseen' : ∀ i ∈ seen ++ [n], i < n + 1 := by
        intro i hi
        rcases List.mem_append.mp hi with hi | hi
        · exact (hseen i hi).trans (Nat.lt_succ_self n)
        · rw [List.mem_singleton.mp hi]
          exact Nat.lt_succ_self n
      have hrest := ih hseen' (by simp at hn ⊢; omega)
      rw [List.flatMap_cons, List.flatMap_cons, hnumber, List.singleton_append,
        List.singleton_append, firstUse, if_neg hfresh, firstUse, if_pos (by simp), hrest,
        List.append_assoc]
      rfl

/-! ### Building -/

theorem rank_range' {k n : ℕ} (hk : k ∈ List.range' 1 n) : rank (List.range' 1 n) k = k := by
  obtain ⟨i, hi, rfl⟩ := List.mem_range'.mp hk
  have hlt : i < (List.range' 1 n).length := by simpa using hi
  have hget : (List.range' 1 n)[i] = 1 + 1 * i := List.getElem_range' _
  have hnodup : (List.range' 1 n).Nodup := List.nodup_range'
  rw [rank, ← hget, hnodup.idxOf_getElem, hget]
  omega

/-- Placeholders already numbered from 1 by first use keep their numbers and
values. -/
theorem numberedAnew_of_numberOrder {baseSql : List Char} {ts : List Tok}
    {binds : List FilterValue} (hbase : placeholderNumbers baseSql = []) (hts : Separated ts)
    (hplain : PlainWords ts)
    (hdollar : ∀ m ∈ marks ts, ∃ k < usizeBound, m.text = "$" ++ toString k)
    (horder : numberOrder (render ts) = List.range' 1 binds.length) :
    numberedAnew baseSql (render ts) binds = ⟨render ts, binds⟩ := by
  have hnumbers : collectNumberedPlaceholders baseSql = [] := by
    rw [collectNumberedPlaceholders_eq, hbase]
    rfl
  have hpicked : (List.range' 1 binds.length).filterMap (pickedBind binds [] 0) = binds := by
    rw [List.range'_eq_map_range, List.filterMap_map]
    have hsome : ∀ i ∈ List.range binds.length,
        ((pickedBind binds [] 0 ∘ (1 + ·)) i).isSome := by
      intro i hi
      simpa [pickedBind_no_numbers] using hi
    apply List.ext_getElem?
    intro i
    rw [getElem?_filterMap_of_isSome hsome]
    by_cases hi : i < binds.length
    · simp [hi, pickedBind_no_numbers]
    · simp [hi]
  -- every token keeps its text
  have htoken : ∀ t ∈ ts, (Tok.relabel (rank (numberOrder (render ts))) t).text = t.text := by
    intro t ht
    cases t with
    | word w =>
        have hnone : numbers (pieces usizeBound w.toList) = [] := hplain _ ht
        rw [text_relabel, Tok.text_word, relabel_id (by simp [hnone]),
          spell_pieces_of_no_numbers hnone]
    | placeholder text origin =>
        have hmark : (⟨text, origin⟩ : Mark) ∈ marks ts :=
          List.mem_filterMap.mpr ⟨.placeholder text origin, ht, rfl⟩
        obtain ⟨k, hk, htext⟩ := hdollar _ hmark
        have hused : k ∈ placeholderNumbers (render ts) := by
          rw [placeholderNumbers_of_plainWords hts hplain]
          refine List.mem_flatMap.mpr ⟨_, hmark, ?_⟩
          rw [htext, placeholderNumbers_dollar hk]
          exact List.mem_singleton_self k
        have hrank : rank (numberOrder (render ts)) k = k := by
          have hmem : k ∈ List.range' 1 binds.length := by
            rw [← horder, numberOrder, mem_firstUse]
            exact Or.inr hused
          rw [horder]
          exact rank_range' hmem
        simp only at htext
        rw [Tok.relabel, Tok.text_placeholder, htext, relabel_dollar _ hk, hrank]
        rfl
  have hrender : render (ts.map (Tok.relabel (rank (numberOrder (render ts))))) = render ts := by
    rw [render, render, List.flatMap_map]
    exact List.flatMap_congr htoken
  rw [numberedAnew, hnumbers]
  simp only [maxPlaceholder, List.foldl_nil, renumberNumberedPlaceholdersWithBinds_eq, horder,
    hpicked]
  split
  · rfl
  · rw [← horder, ← render_map_relabel _ hts, hrender]

/-- A base SELECT without WHERE and without placeholders. -/
structure BaseSelect (parser : Core.Parser) (baseSql : List Char) (q : Query) (s : Select) :
    Prop where
  parsed : Core.parseSql parser baseSql = .ok (some (.query q))
  body : q.body = .select s
  selection : s.selection = none
  numbers : placeholderNumbers baseSql = []
  marks : marks (D.query q) = []
  plain : PlainWords (D.query q)

theorem marks_pageLimit (limit : UInt32) :
    Sqlparser.marks (D.limitClause (some (pageLimit limit))) = [] := by
  obtain ⟨rest, hclause, hrest⟩ := D.limitClause_limitOffset
    (some (numberExpr (limit.toNat + 1))) none []
  obtain rfl := hrest ⟨rfl, by simp⟩
  rw [pageLimit, hclause]
  simp

theorem marks_seekWhere {sorts : List SortField} {cursor : CursorParams}
    (hcursor : PageCursor sorts.length cursor) :
    optionMarks D (seekWhere sorts cursor) = seekMarks 1 cursor.values := by
  cases hcursor with
  | first => rfl
  | beyond direction values h =>
      have hshown := marks_seekExpr D direction 1 h
      simpa [seekWhere, CursorParams.fromValues, optionMarks] using hshown

variable {D} {parser : Core.Parser} {baseSql : List Char} {q : Query} {s : Select}

theorem BaseSelect.marks_pageQuery (hbase : BaseSelect D parser baseSql q s)
    (sorts : List SortField) (limit : UInt32) (cursor : CursorParams) :
    Sqlparser.marks (D.query (pageQuery q s sorts limit cursor)) =
      optionMarks D (seekWhere sorts cursor) := by
  have hmarks := hbase.marks
  rw [marks_query, hbase.body, marks_setExpr_select] at hmarks
  simp only [aheadMarks, behindMarks, List.append_eq_nil_iff] at hmarks
  obtain ⟨⟨hwith, ⟨⟨⟨hquantifier, hprojection⟩, htables⟩, -⟩, ⟨hgroupBy, hhaving⟩, hselectRest⟩,
    -, hfetch, hrest⟩ := hmarks
  rw [marks_query, pageQuery, marks_setExpr_select]
  simp only [aheadMarks, behindMarks, hwith, hquantifier, hprojection, htables, hgroupBy, hhaving,
    hselectRest, hfetch, hrest, marks_orderByOf, marks_pageLimit, List.nil_append, List.append_nil]

/-- What is built for a page: the page statement as it is printed and the
values of the cursor. -/
theorem buildDynamicSql_pageRequest (hbackend : cfg.backend ≠ .mysql)
    (hbase : BaseSelect D parser baseSql q s) {sorting : SortingParams}
    (hsorts : sorting.sorts ≠ []) (hcount : sorting.sorts.length ≤ 10)
    (hfields : PlainFields sorting.sorts) {limit : UInt32} (hlimit : limit.toNat + 1 < 2 ^ 32)
    {cursor : CursorParams} (hcursor : PageCursor sorting.sorts.length cursor) :
    buildDynamicSql cfg D parser baseSql (pageRequest sorting limit cursor) [] =
      .ok ⟨render (D.query (pageQuery q s sorting.sorts limit cursor)), cursor.values⟩ := by
  have hlimitMarks : Sqlparser.marks (D.limitClause q.limitClause) = [] := by
    have hmarks := hbase.marks
    rw [marks_query] at hmarks
    simp only [List.append_eq_nil_iff] at hmarks
    exact hmarks.2.1.2
  have hnumbers : collectNumberedPlaceholders baseSql = [] := by
    rw [collectNumberedPlaceholders_eq, hbase.numbers]
    rfl
  have hstatement := @dynamicStatement_pageRequest cfg hbackend sorting hsorts hcount limit hlimit
    cursor hcursor q s hbase.body hbase.selection
  have hplain := plainWords_pageQuery D hbase.body hbase.plain hfields limit cursor
  have hlength : 1 + cursor.values.length < usizeBound := by
    have hle : cursor.values.length ≤ sorting.sorts.length := by
      cases hcursor with
      | first => exact Nat.zero_le _
      | beyond direction values h => exact h.le
    rw [usizeBound]
    omega
  have hshown : Sqlparser.marks (D.query (pageQuery q s sorting.sorts limit cursor)) =
      seekMarks 1 cursor.values := by
    rw [hbase.marks_pageQuery, marks_seekWhere D hcursor]
  rw [buildDynamicSql_eq D hbase.parsed hlimitMarks, hnumbers, maxPlaceholder, List.foldl_nil,
    hstatement]
  have hdollar : ∀ m ∈ Sqlparser.marks (D.query (pageQuery q s sorting.sorts limit cursor)),
      ∃ k < usizeBound, m.text = "$" ++ toString k := by
    intro m hm
    rw [hshown] at hm
    obtain ⟨k, hk, htext⟩ := mem_seekMarks hm
    exact ⟨k, hk.trans hlength, htext⟩
  have horder : numberOrder (render (D.query (pageQuery q s sorting.sorts limit cursor))) =
      List.range' 1 cursor.values.length := by
    rw [numberOrder, placeholderNumbers_of_plainWords (D.separated _) hplain, hshown,
      firstUse_seekMarks (by simp) hlength, List.nil_append]
  exact congrArg Except.ok
    (numberedAnew_of_numberOrder hbase.numbers (D.separated _) hplain hdollar horder)

end Text

end SqlxData.Dynamic
