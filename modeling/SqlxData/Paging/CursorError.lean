import SqlxData.Dynamic.Noninterference
import SqlxData.Dynamic.Success
import SqlxData.Paging.OffsetPages

/-!
A token that cannot be decoded. Its cursor is empty, so the check for the error
is passed by and no condition is added; but the cursor keeps its direction, and
the direction alone turns ORDER BY around.
-/

namespace SqlxData.Paging

open SqlxData.Core SqlxData.Sqlparser SqlxData.Dynamic NumberedText

/-- The request with this cursor, whatever else it asks for. -/
def withCursor (params : Params) (cursor : CursorParams) : Params :=
  { params with pagination := some (.cursor cursor) }

/-- A statement is refused, or it is that of the first page. -/
def FailsSafe (built first : Except SqlxError BuiltSql) : Prop :=
  (∃ err, built = .error err) ∨ built = first

variable {cfg : Config} {params : Params} {cursor cursor' : CursorParams} {q : Query}
  {bindValues : List FilterValue} {maxExisting : ℕ}

/-! ### Empty cursors -/

theorem withoutCursor_withCursor (hempty : cursor.isEmpty = true) :
    WithoutCursor (withCursor params cursor) := by
  rintro _ ⟨⟩
  exact hempty

theorem dynamicParts_withCursor (hempty : cursor.isEmpty = true) (hempty' : cursor'.isEmpty = true) :
    dynamicParts cfg (withCursor params cursor) = dynamicParts cfg (withCursor params cursor') := by
  rw [dynamicParts, dynamicParts,
    cursorCondition_of_withoutCursor (withoutCursor_withCursor hempty),
    cursorCondition_of_withoutCursor (withoutCursor_withCursor hempty')]
  rfl

/-- Statements for empty cursors differ in ORDER BY alone. -/
theorem processQuery_withCursor (hempty : cursor.isEmpty = true)
    (hempty' : cursor'.isEmpty = true) {q₁ : Query} {binds₁ : List FilterValue}
    (h : processQuery cfg q (withCursor params cursor) bindValues maxExisting = .ok (q₁, binds₁)) :
    q₁.orderBy = orderByFor (withCursor params cursor) q.orderBy ∧
      processQuery cfg q (withCursor params cursor') bindValues maxExisting =
        .ok ({ q₁ with orderBy := orderByFor (withCursor params cursor') q.orderBy }, binds₁) := by
  rw [processQuery] at h
  obtain ⟨n, hn, h⟩ := Core.exists_of_bind_eq_ok h
  obtain ⟨⟨body, s⟩, hbody, h⟩ := Core.exists_of_bind_eq_ok h
  obtain ⟨clause, hclause, h⟩ := Core.exists_of_bind_eq_ok h
  obtain ⟨rfl, rfl⟩ := Prod.mk.inj (Except.ok.inj h)
  rw [processSetExpr_congr (dynamicParts_withCursor hempty hempty')] at hbody
  have hlimit : limitClauseOf cfg (withCursor params cursor') q.limitClause = .ok clause := hclause
  refine ⟨rfl, ?_⟩
  rw [processQuery, hn]
  simp only [Bind.bind, Except.bind, hbody, hlimit]

/-! ### Texts of the two orders -/

section Texts

variable (D : Display)

/-- A token with its numbers relabelled. -/
def spelled (f : ℕ → ℕ) (t : Tok) : List Char := spell (relabel f (pieces usizeBound t.text))

theorem spell_relabel_render (f : ℕ → ℕ) {ts : List Tok} (hts : Separated ts) :
    spell (relabel f (pieces usizeBound (render ts))) = ts.flatMap (spelled f) := by
  rw [pieces_render hts]
  clear hts
  induction ts with
  | nil => rfl
  | cons t ts ih =>
      rw [List.flatMap_cons, List.flatMap_cons, relabel_append, spell_append, ih, spelled]

theorem spelled_word (f : ℕ → ℕ) {s : String} (hs : placeholderNumbers s.toList = []) :
    spelled f (.word s) = s.toList := by
  rw [placeholderNumbers] at hs
  rw [spelled, Tok.text_word, relabel_id (by simp [hs]), spell_pieces_of_no_numbers hs]

/-- The direction of a sort and the place of its NULLs, as printed. -/
def sortOptions (invert : Bool) (sort : SortField) : String :=
  OrderByOptions.text ⟨some (if invert then !sort.isAsc else sort.isAsc), sort.nullsAsBool⟩

theorem orderBy_orderByOf (sorts : List SortField) (invert : Bool) :
    D.orderBy (some (orderByOf sorts invert)) = .word " ORDER BY " ::
      commaSep (sorts.map fun s => [.word s.field, .word (sortOptions invert s)]) := by
  have h := D.orderBy_expressions (sorts.map fun s => (idExpr s.field,
    ⟨some (if invert then !s.isAsc else s.isAsc), s.nullsAsBool⟩))
  rw [List.map_map] at h
  refine Eq.trans h ?_
  simp [List.map_map, Function.comp_def, idExpr, D.expr_identifier, D.ident_new, sortOptions]

theorem placeholderNumbers_sortOptions (invert : Bool) (sort : SortField) :
    placeholderNumbers (sortOptions invert sort).toList = [] := placeholderNumbers_options _ _

theorem toList_sortOptions (invert : Bool) (sort : SortField) :
    (sortOptions invert sort).toList =
      ' ' :: (if (if invert then !sort.isAsc else sort.isAsc) then 'A' else 'D') ::
        (sortOptions invert sort).toList.drop 2 := by
  rw [sortOptions]
  cases (if invert then !sort.isAsc else sort.isAsc) <;>
    rcases sort.nullsAsBool with _ | _ | _ <;> decide

theorem flatMap_commaSep {γ : Type} {h : Tok → List γ} (hcomma : h (.word ", ") = [])
    (parts : List (List Tok)) : (commaSep parts).flatMap h = parts.flatMap (·.flatMap h) := by
  cases parts with
  | nil => rfl
  | cons p ps =>
      have htail : (ps.flatMap (.word ", " :: ·)).flatMap h = ps.flatMap (·.flatMap h) := by
        induction ps with
        | nil => rfl
        | cons p ps ih => simp [hcomma, ih]
      simp [commaSep, htail]

/-- The query with its ORDER BY set to the sorts. -/
def ordered (q : Query) (sorts : List SortField) (invert : Bool) : Query :=
  { q with orderBy := some (orderByOf sorts invert) }

theorem withOrderBy_eq_self {q : Query} {orderBy : Option OrderBy} (h : orderBy = q.orderBy) :
    { q with orderBy := orderBy } = q := by
  subst h
  cases q
  rfl

theorem ordered_eq_self {q : Query} {sorts : List SortField} {invert : Bool}
    (h : q.orderBy = some (orderByOf sorts invert)) : ordered q sorts invert = q :=
  withOrderBy_eq_self h.symm

/-- Both directions have the same numbers. -/
theorem placeholderNumbers_ordered (q : Query) (sorts : List SortField) (invert : Bool) :
    placeholderNumbers (render (D.query (ordered q sorts invert))) =
      placeholderNumbers (render (D.query (ordered q sorts false))) := by
  have horder : ∀ invert, (D.orderBy (some (orderByOf sorts invert))).flatMap
      (fun t => placeholderNumbers t.text) =
        sorts.flatMap fun s => placeholderNumbers s.field.toList := by
    intro invert
    rw [orderBy_orderByOf, List.flatMap_cons, flatMap_commaSep (by decide), List.flatMap_map,
      show placeholderNumbers (Tok.word " ORDER BY ").text = [] by decide, List.nil_append]
    simp [placeholderNumbers_sortOptions]
  rw [placeholderNumbers_render (D.separated _), placeholderNumbers_render (D.separated _),
    D.query_eq, D.query_eq]
  simp only [List.flatMap_append, ordered, horder]

/-- The two texts part at the direction of the first sort. -/
theorem exists_split_ordered (q : Query) (sort : SortField) (sorts : List SortField) :
    ∃ ahead, ∀ invert, ∃ behind, D.query (ordered q (sort :: sorts) invert) =
      ahead ++ .word (sortOptions invert sort) :: behind := by
  refine ⟨(q.with.elim [] fun w => D.with w ++ [.word " "]) ++ D.setExpr q.body ++
    [.word " ORDER BY ", .word sort.field], fun invert => ?_⟩
  rw [D.query_eq, ordered, orderBy_orderByOf, List.map_cons, commaSep]
  simp only [List.append_assoc, List.cons_append, List.nil_append]
  exact ⟨_, rfl⟩

theorem flatMap_ordered_ne (q : Query) (sort : SortField) (sorts : List SortField)
    {g : Tok → List Char} (hg : ∀ s : String, placeholderNumbers s.toList = [] →
      g (.word s) = s.toList) :
    (D.query (ordered q (sort :: sorts) true)).flatMap g ≠
      (D.query (ordered q (sort :: sorts) false)).flatMap g := by
  obtain ⟨ahead, hsplit⟩ := exists_split_ordered D q sort sorts
  obtain ⟨behind, hbefore⟩ := hsplit true
  obtain ⟨behind', hafter⟩ := hsplit false
  rw [hbefore, hafter, List.flatMap_append, List.flatMap_append, List.flatMap_cons,
    List.flatMap_cons, hg _ (placeholderNumbers_sortOptions true sort),
    hg _ (placeholderNumbers_sortOptions false sort)]
  intro h
  have htail := List.append_cancel_left h
  rw [toList_sortOptions true, toList_sortOptions false] at htail
  cases hasc : sort.isAsc <;> simp [hasc] at htail

/-- The texts differ after the numbering, too. -/
theorem renumber_ordered_ne (q : Query) (sort : SortField) (sorts : List SortField)
    (bindValues : List FilterValue) (numbers : List ℕ) (maxExisting : ℕ) :
    (renumberNumberedPlaceholdersWithBinds bindValues numbers maxExisting
        (render (D.query (ordered q (sort :: sorts) true)))).1 ≠
      (renumberNumberedPlaceholdersWithBinds bindValues numbers maxExisting
        (render (D.query (ordered q (sort :: sorts) false)))).1 := by
  have horder : numberOrder (render (D.query (ordered q (sort :: sorts) true))) =
      numberOrder (render (D.query (ordered q (sort :: sorts) false))) := by
    rw [numberOrder, numberOrder, placeholderNumbers_ordered]
  rw [renumberNumberedPlaceholdersWithBinds_eq, renumberNumberedPlaceholdersWithBinds_eq, horder]
  simp only
  split
  · exact flatMap_ordered_ne D q sort sorts fun s _ => rfl
  · rw [spell_relabel_render _ (D.separated _), spell_relabel_render _ (D.separated _)]
    exact flatMap_ordered_ne D q sort sorts fun s hs => spelled_word _ hs

end Texts

/-! ### The built statement -/

section Build

variable {D : Display} {parser : Core.Parser} {baseSql : List Char} {initialBinds : List FilterValue}

theorem buildDynamicSql_withCursor (hparse : parseSql parser baseSql = .ok (some (.query q)))
    {base : List FilterValue × List ℕ}
    (hbase : baseBinds baseSql (.query q) params initialBinds = base) :
    buildDynamicSql cfg D parser baseSql (withCursor params cursor) initialBinds =
      (processQuery cfg q (withCursor params cursor) base.1 (maxPlaceholder base.2)).map
        (finished D base.2) :=
  buildDynamicSql_of_query hparse (by simp [withCursor, Params.isEmpty]) hbase

/-- ORDER BY depends on whether the cursor goes backwards, when it is replaced
at all. -/
theorem orderByFor_withCursor (existing : Option OrderBy)
    (h : replacesOrderBy params = false ∨
      (cursor.direction = some .before ↔ cursor'.direction = some .before)) :
    orderByFor (withCursor params cursor) existing =
      orderByFor (withCursor params cursor') existing := by
  simp only [orderByFor, withCursor, shouldInvertOrder]
  rcases h with h | h
  · cases hsort : params.sortBy with
    | none => rfl
    | some sortBy =>
        have hnone : (!sortBy.sorts.isEmpty) = false := by simpa [replacesOrderBy, hsort] using h
        simp only [hnone, Bool.false_eq_true, if_false]
  · rw [decide_eq_decide.mpr h]

theorem exists_sorts (h : replacesOrderBy params = true) : ∃ sort sorts, ∀ cursor existing,
    orderByFor (withCursor params cursor) existing =
      some (orderByOf (sort :: sorts) (cursor.direction = some .before)) := by
  cases hsort : params.sortBy with
  | none => simp [replacesOrderBy, hsort] at h
  | some sortBy =>
      have hsorts : (!sortBy.sorts.isEmpty) = true := by simpa [replacesOrderBy, hsort] using h
      obtain ⟨sort, sorts, hcons⟩ := List.exists_cons_of_ne_nil
        (l := sortBy.sorts) (by simpa using hsorts)
      refine ⟨sort, sorts, fun cursor existing => ?_⟩
      simp only [orderByFor, withCursor, hsort, shouldInvertOrder, hcons, List.isEmpty_cons,
        Bool.not_false, if_true]

/-- A finished statement tells the direction of its first sort. -/
theorem finished_ordered_ne (numbers : List ℕ) (q : Query) (sort : SortField)
    (sorts : List SortField) (bindValues : List FilterValue) :
    finished D numbers (ordered q (sort :: sorts) true, bindValues) ≠
      finished D numbers (ordered q (sort :: sorts) false, bindValues) := fun h =>
  renumber_ordered_ne D q sort sorts bindValues numbers (maxPlaceholder numbers)
    (congrArg BuiltSql.sql h)

/-- A token that cannot be decoded fails safe exactly when it was to lead
forwards, when there is no sort to turn around, or when nothing is built for
the request at all. -/
theorem undecodable_token_fails_safe_iff {T : Type} {ext : CursorSecureExtract T} {token : String}
    {e : CursorError} (hdecode : ext.decode token = .error e)
    (hparse : parseSql parser baseSql = .ok (some (.query q))) (direction : CursorDirection)
    (errorText : CursorError → String) :
    let base := baseBinds baseSql (.query q) params initialBinds
    FailsSafe
        (buildDynamicSql cfg D parser baseSql
          (withCursor params (.decoded ext token direction errorText)) initialBinds)
        (buildDynamicSql cfg D parser baseSql (withCursor params .firstPage) initialBinds) ↔
      direction = .after ∨ replacesOrderBy params = false ∨
        ¬Buildable cfg q (withCursor params .firstPage) base.1.length (maxPlaceholder base.2) := by
  intro base
  have hbase : baseBinds baseSql (.query q) params initialBinds = base := rfl
  clear_value base
  have hdecoded : CursorParams.decoded ext token direction errorText =
      .withError direction (errorText e) := by rw [CursorParams.decoded, hdecode]
  have hempty : (CursorParams.withError direction (errorText e)).isEmpty = true := rfl
  have hfirst : CursorParams.firstPage.isEmpty = true := rfl
  rw [hdecoded, buildDynamicSql_withCursor hparse hbase, buildDynamicSql_withCursor hparse hbase,
    ← processQuery_ok_iff (withoutCursor_withCursor hfirst)]
  cases hrun : processQuery cfg q (withCursor params .firstPage) base.1 (maxPlaceholder base.2) with
  | error err =>
      -- the first page is refused, so the other request is refused as well
      refine iff_of_true (.inl ?_) (.inr (.inr (by simp)))
      cases herrored : processQuery cfg q (withCursor params (.withError direction (errorText e)))
          base.1 (maxPlaceholder base.2) with
      | error err' => exact ⟨err', rfl⟩
      | ok r =>
          have hsame := (processQuery_withCursor hempty hfirst herrored).2
          rw [hrun] at hsame
          cases hsame
  | ok r =>
      obtain ⟨q₁, binds₁⟩ := r
      obtain ⟨horder, herrored⟩ := processQuery_withCursor hfirst hempty hrun
      have hbuilt : ¬(¬∃ r, Except.ok (ε := SqlxError) (q₁, binds₁) = .ok r) :=
        not_not.mpr ⟨_, rfl⟩
      rw [herrored, or_iff_left hbuilt]
      constructor
      · rintro (⟨err, herr⟩ | hsame)
        · cases herr
        by_contra hturned
        rw [not_or, Bool.not_eq_false] at hturned
        obtain ⟨hback, hreplaces⟩ := hturned
        obtain ⟨sort, sorts, hsorts⟩ := exists_sorts hreplaces
        obtain rfl : direction = .before := by
          cases direction with
          | after => exact absurd rfl hback
          | before => rfl
        -- the first page has the same sorts in their own direction
        have hforward : q₁.orderBy = some (orderByOf (sort :: sorts) false) :=
          horder.trans (hsorts .firstPage q.orderBy)
        have hfinished := Except.ok.inj hsame
        rw [hsorts, ← ordered_eq_self hforward] at hfinished
        exact finished_ordered_ne base.2 q₁ sort sorts binds₁ hfinished
      · intro h
        right
        have hsame : orderByFor (withCursor params (.withError direction (errorText e))) q.orderBy =
            q₁.orderBy := by
          rw [horder]
          refine orderByFor_withCursor q.orderBy (h.symm.imp id ?_)
          rintro rfl
          exact iff_of_false nofun nofun
        rw [withOrderBy_eq_self hsame]

end Build

/-! ### Two tokens that do not decode -/

namespace UndecodableExample

open Reference Example

/-- No token of the row type decodes. -/
def closed : CursorSecureExtract Unit where
  extractWhitelistedFields _ fields := .ok (fields.map fun _ => .int 0)
  encode _ := .ok "0"
  decode _ := .error (.decodeError "invalid token")

def shown : CursorError → String := fun _ => "invalid token"

/-- Three rows in the order of their ids. -/
def threeById : Params :=
  { Params.default with
    sortBy := some ⟨[⟨"id", .asc, .default, .safe⟩], [], none⟩
    limit := some 3 }

def requested (cursor : CursorParams) : Except SqlxError BuiltSql :=
  buildDynamicSql (build .sqlite) Display.reference (parserOf wholeTable) (text wholeTable)
    (withCursor threeById cursor) []

end UndecodableExample

open UndecodableExample Reference Example

theorem undecodable_next_fails_safe :
    FailsSafe (requested (.nextCursor closed shown "?")) (requested .firstPage) :=
  (undecodable_token_fails_safe_iff
    (rfl : closed.decode "?" = .error (.decodeError "invalid token")) rfl .after shown).mpr
      (.inl rfl)

/-- A token for the page before gets the last three rows, and no error. -/
theorem undecodable_prev_turned :
    requested (.prevCursor closed shown "?") =
        .ok ⟨"SELECT * FROM users ORDER BY id DESC LIMIT 4".toList, []⟩ ∧
      requested .firstPage = .ok ⟨"SELECT * FROM users ORDER BY id ASC LIMIT 4".toList, []⟩ ∧
      ¬FailsSafe (requested (.prevCursor closed shown "?")) (requested .firstPage) := by
  have hprev : requested (.prevCursor closed shown "?") =
      .ok ⟨"SELECT * FROM users ORDER BY id DESC LIMIT 4".toList, []⟩ := by rfl
  have hfirst : requested .firstPage =
      .ok ⟨"SELECT * FROM users ORDER BY id ASC LIMIT 4".toList, []⟩ := by rfl
  refine ⟨hprev, hfirst, ?_⟩
  rw [hprev, hfirst]
  rintro (⟨err, herr⟩ | hsame)
  · cases herr
  · exact absurd (congrArg BuiltSql.sql (Except.ok.inj hsame)) (by decide)

end SqlxData.Paging
