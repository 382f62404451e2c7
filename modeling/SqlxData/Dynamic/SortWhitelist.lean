import SqlxData.Dynamic.Validation
import SqlxData.Dynamic.WhereText

/-!
What a valid request prints of its sort fields. Names go into ORDER BY and the
cursor condition as they are; the ones that came in through an unsafe method
are in the whitelist.
-/

namespace SqlxData.Dynamic

open SqlxData.Sqlparser

variable {cfg : Config}

/-! ### Words -/

/-- The words the builder writes around the names in a cursor condition and in
an ORDER BY. -/
def clauseWords : List String :=
  [" > ", " < ", " = ", " AND ", " OR ", "(", ")", " ORDER BY ", ", ", " ASC", " ASC NULLS FIRST",
    " ASC NULLS LAST", " DESC", " DESC NULLS FIRST", " DESC NULLS LAST"]

/-- The names are put in between words of the builder. -/
def WordsOf (names : List String) (ts : List Tok) : Prop :=
  ∀ w, Tok.word w ∈ ts → w ∈ clauseWords ∨ w ∈ names

section Words

variable (D : Display) {names : List String}

theorem wordsOf_append {ts us : List Tok} (hts : WordsOf names ts) (hus : WordsOf names us) :
    WordsOf names (ts ++ us) := fun w h => (List.mem_append.mp h).elim (hts w) (hus w)

theorem wordsOf_word {w : String} (h : w ∈ clauseWords ∨ w ∈ names) :
    WordsOf names [.word w] := by
  intro w' hw'
  obtain rfl := Tok.word.inj (List.mem_singleton.mp hw')
  exact h

theorem wordsOf_idExpr {name : String} (h : name ∈ names) :
    WordsOf names (D.expr (idExpr name)) := by
  rw [idExpr, D.expr_identifier, D.ident_new]
  exact wordsOf_word (Or.inr h)

theorem wordsOf_bin {op : BinaryOperator} {l r : Expr} (hl : WordsOf names (D.expr l))
    (hop : " " ++ op.symbol ++ " " ∈ clauseWords) (hr : WordsOf names (D.expr r)) :
    WordsOf names (D.expr (bin op l r)) := by
  rw [bin, D.expr_binaryOp, ← List.singleton_append]
  exact wordsOf_append hl (wordsOf_append (wordsOf_word (Or.inl hop)) hr)

theorem wordsOf_nested {e : Expr} (h : WordsOf names (D.expr e)) :
    WordsOf names (D.expr (.nested e)) := by
  rw [D.expr_nested, ← List.singleton_append]
  exact wordsOf_append (wordsOf_append (wordsOf_word (Or.inl (by decide))) h)
    (wordsOf_word (Or.inl (by decide)))

theorem wordsOf_commaSep {parts : List (List Tok)} (h : ∀ part ∈ parts, WordsOf names part) :
    WordsOf names (commaSep parts) := by
  cases parts with
  | nil => exact fun w hw => absurd hw List.not_mem_nil
  | cons part parts =>
      refine wordsOf_append (h part List.mem_cons_self) fun w hw => ?_
      obtain ⟨part', hpart', hw⟩ := List.mem_flatMap.mp hw
      rcases List.mem_cons.mp hw with hcomma | hw
      · obtain rfl := Tok.word.inj hcomma
        exact Or.inl (by decide)
      · exact h part' (List.mem_cons_of_mem part hpart') w hw

theorem wordsOf_cursorOperator (direction : CursorDirection) (asc : Bool) :
    " " ++ (cursorOperator direction asc).symbol ++ " " ∈ clauseWords := by
  cases direction <;> cases asc <;> decide

theorem yields_bind_words (v : FilterValue) :
    Yields (fun e => WordsOf names (D.expr e)) (bind cfg v) := by
  refine (yields_bind_placeholder v).mono ?_
  rintro _ ⟨text, rfl⟩ w hw
  rw [valueExpr, D.expr_placeholder] at hw
  simp at hw

theorem yields_cursor_words (direction : CursorDirection) (sorts : List SortField)
    (values : List FilterValue) :
    Yields (fun e => WordsOf (sorts.map SortField.field) (D.expr e))
      (buildCursorConditionRecursive cfg direction sorts values) := by
  have hrun : ∀ names, (∀ sort ∈ sorts, sort.field ∈ names) →
      Yields (fun e => WordsOf names (D.expr e))
        (buildCursorConditionRecursive cfg direction sorts values) := by
    intro names hnames
    induction sorts generalizing values with
    | nil => exact yields_throw _ _
    | cons sort sorts ih =>
        rcases values with _ | ⟨v, values⟩
        · exact yields_throw _ _
        have hname := wordsOf_idExpr D (hnames sort List.mem_cons_self)
        have hop := wordsOf_cursorOperator direction sort.isAsc
        rcases sorts with _ | ⟨sort', sorts⟩
        · exact (yields_bind_words D v).map fun value hvalue => wordsOf_bin D hname hop hvalue
        have hrest := ih values fun s hs => hnames s (List.mem_cons_of_mem sort hs)
        have hbind : Yields (fun e => WordsOf names (D.expr e)) (bind cfg v) := yields_bind_words D v
        refine hbind.seq fun value hvalue => hrest.seq fun rest hrest =>
          (yields_eqPlaceholder hbind hvalue).map fun eqValue heqValue => ?_
        have hwrapped :
            WordsOf names (D.expr (if sorts.isEmpty then rest else .nested rest)) := by
          split
          · exact hrest
          · exact wordsOf_nested D hrest
        have hequal := wordsOf_bin D hname (show " " ++ BinaryOperator.eq.symbol ++ " " ∈ clauseWords
          by decide) heqValue
        exact wordsOf_bin D (wordsOf_bin D hname hop hvalue) (by decide)
          (wordsOf_nested D (wordsOf_bin D hequal (by decide) hwrapped))
  exact hrun _ fun sort hsort => List.mem_map_of_mem hsort

/-- The cursor condition of a SELECT. -/
theorem yields_parts_words {params : Params} {s : SortingParams} (hs : params.sortBy = some s) :
    Yields (fun parts => ∀ e ∈ parts.cursor, WordsOf (s.sorts.map SortField.field) (D.expr e))
      (dynamicParts cfg params) := by
  by_cases hcursor : ∃ cursor, params.pagination = some (.cursor cursor)
  · obtain ⟨cursor, hpagination⟩ := hcursor
    refine (yields_parts_cursor hs hpagination fun direction _ _ =>
      yields_cursor_words D direction s.sorts cursor.values).mono fun parts h e he => ?_
    split at h
    · rw [h] at he
      cases he
    · obtain ⟨e', he', hwords⟩ := h
      obtain rfl := Option.mem_unique he he'
      exact hwords
  · refine (yields_parts_noCursor fun cursor h => hcursor ⟨cursor, h⟩).mono fun parts h e he => ?_
    rw [h] at he
    cases he

theorem mem_clauseWords_options (asc : Bool) (nullsFirst : Option Bool) :
    OrderByOptions.text ⟨some asc, nullsFirst⟩ ∈ clauseWords := by
  cases asc <;> rcases nullsFirst with _ | _ | _ <;> decide

theorem wordsOf_orderByOf (sorts : List SortField) (invert : Bool) :
    WordsOf (sorts.map SortField.field) (D.orderBy (some (orderByOf sorts invert))) := by
  have h := D.orderBy_expressions (sorts.map fun s => (idExpr s.field,
    ⟨some (if invert then !s.isAsc else s.isAsc), s.nullsAsBool⟩))
  rw [List.map_map] at h
  have horder : D.orderBy (some (orderByOf sorts invert)) = _ := h
  rw [horder, List.map_map, ← List.singleton_append]
  refine wordsOf_append (wordsOf_word (Or.inl (by decide))) (wordsOf_commaSep ?_)
  rintro _ hpart
  obtain ⟨sort, hsort, rfl⟩ := List.mem_map.mp hpart
  exact wordsOf_append (wordsOf_idExpr D (List.mem_map_of_mem hsort))
    (wordsOf_word (Or.inl (mem_clauseWords_options _ _)))

end Words

/-! ### Whitelisted names -/

/-- The word is one of the builder's or the field of a sort, which the
whitelist has when it is an unsafe one. -/
def Vetted (s : SortingParams) (w : String) : Prop :=
  w ∈ clauseWords ∨ ∃ sort ∈ s.sorts, w = sort.field ∧
    (sort.isUnsafe → ∃ allowed, s.allowedColumns = some allowed ∧ w ∈ allowed)

/-- A valid sort list has its unsafe fields in the whitelist. -/
theorem whitelisted_of_valid {params : Params} {s : SortingParams} (hs : params.sortBy = some s)
    (htracked : s.Tracked) (hvalid : validateFields params = .ok ()) {sort : SortField}
    (hsort : sort ∈ s.sorts) (hmarked : sort.isUnsafe) :
    ∃ allowed, s.allowedColumns = some allowed ∧ sort.field ∈ allowed := by
  have hfield := htracked.mem_unsafeFields hsort hmarked
  have hsome : s.hasUnsafeFields = true := by
    rw [SortingParams.hasUnsafeFields, Bool.not_eq_true', List.isEmpty_eq_false_iff]
    exact List.ne_nil_of_mem hfield
  have hfields : s.validateFields = .ok () := by
    cases hverdict : s.validateFields with
    | ok _ => rfl
    | error msg =>
        simp [validateFields, validateSorting, hs, hsome, hverdict, Except.mapError, Bind.bind,
          Except.bind] at hvalid
  rcases (s.validateFields_eq_ok_iff).mp hfields with hnone | ⟨allowed, hallowed, hall⟩
  · rw [hnone] at hfield
    exact absurd hfield List.not_mem_nil
  · exact ⟨allowed, hallowed, hall _ hfield⟩

/-- In every run the second list names the unsafe sorts in order. So a request
that is valid has them in its whitelist, and what it prints in ORDER BY and in
the cursor conditions is made of vetted words. -/
theorem sort_whitelist_sound :
    (∀ s : SortingParams, s.Reachable →
      s.unsafeFields = (s.sorts.filter SortField.isUnsafe).map SortField.field) ∧
    (∀ calls : List ParamsCall,
      (∀ sorts, .sort sorts ∈ calls → ∃ sortCalls, sorts = sortOf sortCalls) →
      ∀ s ∈ (ParamsBuilder.build calls).sortBy, s.Reachable) ∧
    ∀ (cfg : Config) (D : Display) (parser : Core.Parser) (baseSql : List Char) (q : Query)
      (params : Params) (s : SortingParams) (initialBinds : List FilterValue) (built : BuiltSql),
      params.sortBy = some s → s.Reachable → validateFields params = .ok () →
      Core.parseSql parser baseSql = .ok (some (.query q)) →
      buildDynamicSql cfg D parser baseSql params initialBinds = .ok built →
      (∀ sort ∈ s.sorts, sort.isUnsafe →
        ∃ allowed, s.allowedColumns = some allowed ∧ sort.field ∈ allowed) ∧
      ∃ q', PrintedFrom D q' built.sql ∧
        (q'.orderBy = q.orderBy ∨ ∀ w, .word w ∈ D.orderBy q'.orderBy → Vetted s w) ∧
        List.Forall₂ (fun select select' => ∃ parts, GeneratedParts cfg params parts ∧
            select' = { select with
              selection := withDynamicWhere select.selection parts.combined } ∧
            ∀ e ∈ parts.cursor, ∀ w, .word w ∈ D.expr e → Vetted s w)
          (selects q.body) (selects q'.body) := by
  refine ⟨fun s h => h.tracked, fun calls => SortingParams.reachable_build, ?_⟩
  intro cfg D parser baseSql q params s initialBinds built hs hreachable hvalid hparse hbuild
  have hlisted := @whitelisted_of_valid params s hs hreachable.tracked hvalid
  have hvetted : ∀ ts, WordsOf (s.sorts.map SortField.field) ts → ∀ w, .word w ∈ ts → Vetted s w := by
    intro ts hts w hw
    rcases hts w hw with hown | hname
    · exact Or.inl hown
    · obtain ⟨sort, hsort, rfl⟩ := List.mem_map.mp hname
      exact Or.inr ⟨sort, hsort, rfl, hlisted hsort⟩
  have hparams : params.isEmpty = false := by simp [Params.isEmpty, hs]
  obtain ⟨q', hsql, hselects, horder⟩ := exists_extended hparse hparams hbuild
  refine ⟨fun sort hsort => hlisted hsort, q', hsql, ?_, hselects.imp ?_⟩
  · rw [horder, orderByFor, hs]
    simp only
    split
    · exact Or.inr (hvetted _ (wordsOf_orderByOf D _ _))
    · exact Or.inl rfl
  · rintro select select' ⟨parts, ⟨st, st', hrun⟩, rfl⟩
    exact ⟨parts, ⟨st, st', hrun⟩, rfl,
      fun e he => hvetted _ (yields_parts_words D hs st parts st' hrun e he)⟩

/-- A request sorted by one whitelisted name. -/
theorem whitelisted_name :
    let s := sortOf [.withAllowedColumns ["name"], .ascUnsafe "name"]
    let q := Reference.simpleQuery (.select (Reference.simpleSelect [.wildcard] "items" none))
    ∃ built q', buildDynamicSql (Example.build .postgres) Display.reference (Reference.parserOf q)
        (Reference.text q) { Params.default with sortBy := some s } [] = .ok built ∧
      s.unsafeFields = (s.sorts.filter SortField.isUnsafe).map SortField.field ∧
      PrintedFrom Display.reference q' built.sql ∧
      (q'.orderBy = q.orderBy ∨ ∀ w, .word w ∈ Display.reference.orderBy q'.orderBy → Vetted s w) := by
  intro s q
  have hreachable : s.Reachable := SortingParams.reachable_sortOf _
  obtain ⟨built, hbuilt⟩ : ∃ built, buildDynamicSql (Example.build .postgres) Display.reference
      (Reference.parserOf q) (Reference.text q) { Params.default with sortBy := some s } [] =
        .ok built := ⟨_, rfl⟩
  obtain ⟨_, q', hsql, horder, _⟩ := sort_whitelist_sound.2.2 _ _ _ _ _ _ _ _ _ rfl hreachable
    rfl rfl hbuilt
  exact ⟨built, q', hbuilt, sort_whitelist_sound.1 s hreachable, hsql, horder⟩

end SqlxData.Dynamic
