import SqlxData.Dynamic.Emits
import SqlxData.Macros.MultiInsert
import SqlxData.Sqlparser.Reference

/-!
The rows an INSERT puts into its table, and the statement of a generated batch
insert: it inserts what its template inserts for each tuple, one after the
other.
-/

namespace SqlxData.Macros

open SqlxData.Sqlparser SqlxData.Core SqlxData.Dynamic

variable {β : Type}

/-! ### The rows of a statement -/

/-- The number behind a `$`. -/
def dollarNumber (text : String) : Option ℕ :=
  match text.toList with
  | '$' :: digits =>
      if digits ≠ [] ∧ digits.all Char.isDigit then some (Nat.ofDigitChars 10 digits 0) else none
  | _ => none

def isPositional : Expr → Bool
  | .value (.placeholder text _) => text = "?"
  | _ => false

/-- The argument, from 0 on, that an expression of a row reads, when there are
`position` placeholders `?` in front of it. -/
def readsArgument (position : ℕ) : Expr → Option ℕ
  | .value (.placeholder text _) =>
      if text = "?" then some position
      else (dollarNumber text).bind fun k => if k = 0 then none else some (k - 1)
  | _ => none

def rowReads : ℕ → List Expr → List (Option ℕ)
  | _, [] => []
  | position, e :: es =>
      readsArgument position e :: rowReads (if isPositional e then position + 1 else position) es

def rowsRead : ℕ → List (List Expr) → List (List (Option ℕ))
  | _, [] => []
  | position, row :: rows =>
      rowReads position row :: rowsRead (position + row.countP isPositional) rows

/-- The rows of a VALUES list whose placeholders are bound to the arguments. -/
def insertedRows (rows : List (List Expr)) (arguments : List β) : List (List (Option β)) :=
  (rowsRead 0 rows).map fun row => row.map fun reads => reads.bind (arguments[·]?)

/-! ### Rows of fresh placeholders -/

/-- The placeholders `pushTuple` writes behind `count` arguments. -/
def freshRow (backend : Backend) : ℕ → List β → List Expr
  | _, [] => []
  | count, _ :: vs =>
      valueExpr (.placeholder (formatPlaceholder backend (count + 1)) (.argument count)) ::
        freshRow backend (count + 1) vs

def freshRows (backend : Backend) : ℕ → List (List β) → List (List Expr)
  | _, [] => []
  | count, tuple :: tuples =>
      freshRow backend count tuple :: freshRows backend (count + tuple.length) tuples

theorem dollarNumber_dollar (k : ℕ) : dollarNumber ("$" ++ toString k) = some k := by
  have htext : ("$" ++ toString k).toList = '$' :: Nat.toDigits 10 k := by
    simp [Nat.toString_eq_repr, Nat.toList_repr]
  have hdigits : Nat.toDigits 10 k ≠ [] ∧ (Nat.toDigits 10 k).all Char.isDigit := by
    refine ⟨Nat.toDigits_ne_nil, List.all_eq_true.mpr fun c hc => ?_⟩
    exact Nat.isDigit_of_mem_toDigits (by omega) (by omega) hc
  rw [dollarNumber, htext]
  simp only [hdigits, Nat.ofDigitChars_ten_toDigits]
  simp

theorem formatPlaceholder_postgres_ne (count : ℕ) : formatPlaceholder .postgres count ≠ "?" := by
  intro h
  have hdollar := dollarNumber_dollar count
  rw [formatPlaceholder] at h
  rw [h] at hdollar
  cases hdollar

/-- A fresh placeholder reads the argument bound with it: by its number, or by
its position when as many are in front of it as there are arguments. -/
theorem readsArgument_fresh {backend : Backend} {position count : ℕ}
    (h : backend = .postgres ∨ position = count) (origin : Origin) :
    readsArgument position
      (valueExpr (.placeholder (formatPlaceholder backend (count + 1)) origin)) = some count := by
  cases backend with
  | postgres =>
      rw [valueExpr, readsArgument, if_neg (formatPlaceholder_postgres_ne _), formatPlaceholder,
        dollarNumber_dollar]
      simp
  | sqlite | mysql =>
      obtain h | rfl := h
      · cases h
      · rfl

theorem isPositional_fresh (backend : Backend) (count : ℕ) (origin : Origin) :
    isPositional (valueExpr (.placeholder (formatPlaceholder backend count) origin)) =
      decide (backend ≠ .postgres) := by
  cases backend with
  | postgres => simp [valueExpr, isPositional, formatPlaceholder_postgres_ne]
  | sqlite | mysql => rfl

theorem rowReads_freshRow {backend : Backend} {position count : ℕ}
    (h : backend = .postgres ∨ position = count) (vs : List β) :
    rowReads position (freshRow backend count vs) = (List.range' count vs.length).map some := by
  induction vs generalizing position count with
  | nil => rfl
  | cons v vs ih =>
      have hnext : backend = .postgres ∨
          (if decide (backend ≠ .postgres) = true then position + 1 else position) = count + 1 := by
        by_cases hbackend : backend = .postgres
        · exact .inl hbackend
        · right
          simpa [hbackend] using h
      rw [freshRow, rowReads, readsArgument_fresh h, isPositional_fresh, ih hnext]
      rfl

theorem countP_freshRow (backend : Backend) (count : ℕ) (vs : List β) :
    (freshRow backend count vs).countP isPositional =
      if backend = .postgres then 0 else vs.length := by
  induction vs generalizing count with
  | nil => simp [freshRow]
  | cons v vs ih =>
      rw [freshRow, List.countP_cons, ih, isPositional_fresh]
      by_cases hbackend : backend = .postgres <;> simp [hbackend]

/-- The rows read the arguments bound with them, tuple by tuple. -/
theorem map_rowsRead_freshRows {backend : Backend} {position : ℕ} (before : List β)
    (h : backend = .postgres ∨ position = before.length) (tuples : List (List β)) :
    ((rowsRead position (freshRows backend before.length tuples)).map fun row =>
        row.map fun reads => reads.bind ((before ++ tuples.flatten)[·]?)) =
      tuples.map (·.map some) := by
  induction tuples generalizing position before with
  | nil => rfl
  | cons tuple tuples ih =>
      have hnext : backend = .postgres ∨
          position + (freshRow backend before.length tuple).countP isPositional =
            (before ++ tuple).length := by
        rw [countP_freshRow, List.length_append]
        by_cases hbackend : backend = .postgres
        · exact .inl hbackend
        · right
          simpa [hbackend] using h
      have hrow : ((List.range' before.length tuple.length).map fun k =>
          (before ++ (tuple ++ tuples.flatten))[k]?) = tuple.map some := by
        apply List.ext_getElem
        · simp
        · intro i hi _
          have hlt : i < tuple.length := by simpa using hi
          simp [List.getElem?_append_right, List.getElem?_append_left, hlt]
      have hrows := ih (before ++ tuple) hnext
      rw [List.length_append, List.append_assoc] at hrows
      rw [freshRows, rowsRead, rowReads_freshRow h, List.map_cons, List.flatten_cons, hrows]
      simp only [List.map_map, Function.comp_def, Option.bind_some, List.map_cons, hrow]

theorem insertedRows_freshRows (backend : Backend) (tuples : List (List β)) :
    insertedRows (freshRows backend 0 tuples) tuples.flatten = tuples.map (·.map some) :=
  map_rowsRead_freshRows [] (.inr rfl) tuples

/-! ### The text of the rows -/

variable {D : Display}

theorem render_commaSep (parts : List (List Tok)) :
    render (commaSep parts) = ", ".toList.intercalate (parts.map render) := by
  cases parts with
  | nil => rfl
  | cons part parts =>
      induction parts generalizing part with
      | nil => simp [commaSep, List.intercalate_singleton]
      | cons next parts ih =>
          have htail := ih next
          rw [commaSep] at htail ⊢
          rw [List.map_cons, List.map_cons, List.intercalate_cons_cons, ← List.map_cons, ← htail]
          simp

theorem render_rowText_freshRow (backend : Backend) (count : ℕ) (vs : List β) :
    render (rowText D (freshRow backend count vs)) = tupleText backend count vs.length := by
  have hrow : ((freshRow backend count vs).map D.expr).map render =
      (List.range' (count + 1) vs.length).map fun k => (formatPlaceholder backend k).toList := by
    induction vs generalizing count with
    | nil => rfl
    | cons v vs ih =>
        rw [freshRow, List.map_cons, List.map_cons, ih, valueExpr, D.expr_placeholder,
          List.length_cons, List.range'_succ, List.map_cons]
        simp
  rw [tupleText, ← hrow, ← render_commaSep, rowText]
  simp

/-- The text sqlx pushes for the tuples is that of rows of fresh placeholders. -/
theorem render_freshRows (backend : Backend) (count : ℕ) (tuples : List (List β)) :
    render (commaSep ((freshRows backend count tuples).map (rowText D))) =
      ", ".toList.intercalate (tupleTexts backend count tuples) := by
  have hrows : ((freshRows backend count tuples).map (rowText D)).map render =
      tupleTexts backend count tuples := by
    induction tuples generalizing count with
    | nil => rfl
    | cons tuple tuples ih =>
        rw [freshRows, List.map_cons, List.map_cons, ih, render_rowText_freshRow, tupleTexts]
  rw [render_commaSep, hrows]

/-! ### Templates -/

variable (P : InsertDisplay D)

/-- An INSERT of one row of placeholders that name the `n` components of a
tuple in order, with a column list and no placeholder outside of the row. -/
structure BatchTemplate (i : Insert) (n : ℕ) (row : List Expr) : Prop where
  columns : i.columns ≠ []
  source : i.source = some (valuesQuery [row])
  inOrder : rowReads 0 row = (List.range n).map some
  assignments : i.assignments = []
  formatClause : i.formatClause = none
  insertAlias : i.insertAlias = none
  ahead : marks (P.insert i.clean) = []
  on : ∀ clause ∈ i.on, marks (P.onInsert clause) = []

/-- The template with other rows, in front of its RETURNING list. -/
def withRows (i : Insert) (rows : List (List Expr)) : Insert :=
  { i with source := some (valuesQuery rows), returning := none }

/-- The RETURNING list without casts of sqlx. -/
def returningOf (D : Display) (i : Insert) : List Char :=
  (i.returning.map fun items => cleanSqlxCastSyntaxForRuntime (render (returningText D items))).getD
    []

/-- The statement is the template with one row for each tuple, up to the casts
in its RETURNING list; every placeholder has its argument, and the rows are
those the template inserts for the tuples, one after the other. -/
structure RowwiseInsert {n : ℕ} (i : Insert) (row : List Expr) (tuples : List (Fin n → β))
    (sql : List Char) (arguments : List β) : Prop where
  binds : arguments = tuples.flatMap List.ofFn
  statement : ∃ rows,
    sql = render (P.insert (withRows i rows)) ++ returningOf D i ∧
      (marks (P.insert (withRows i rows))).length = arguments.length ∧
      insertedRows rows arguments = tuples.flatMap fun t => insertedRows [row] (List.ofFn t)

/-- A statement without rows: what is in front of them, the keyword, and what
is behind them. -/
structure NoRows (i : Insert) (sql : List Char) (arguments : List β) : Prop where
  binds : arguments = []
  statement : sql = render (P.insert i.clean) ++ "VALUES ".toList ++
    render (i.on.elim [] P.onInsert) ++ returningOf D i

variable {P} {i : Insert} {n : ℕ} {row : List Expr}

/-- For one tuple the template inserts that tuple. -/
theorem BatchTemplate.insertedRows (h : BatchTemplate P i n row) (t : Fin n → β) :
    insertedRows [row] (List.ofFn t) = [(List.ofFn t).map some] := by
  have hrow : ((List.range n).map fun k => (List.ofFn t)[k]?) = (List.ofFn t).map some := by
    apply List.ext_getElem
    · simp
    · intro j hj _
      simp only [List.length_map, List.length_range] at hj
      simp [hj]
  rw [Macros.insertedRows, rowsRead, rowsRead, h.inOrder]
  simp only [List.map_cons, List.map_nil, List.map_map, Function.comp_def, Option.bind_some, hrow]

theorem marks_rowText_freshRow (backend : Backend) (count : ℕ) (vs : List β) :
    (marks (rowText D (freshRow backend count vs))).length = vs.length := by
  have hrow : marks (rowText D (freshRow backend count vs)) =
      (freshRow backend count vs).flatMap fun e => marks (D.expr e) := by
    simp [rowText, marks_commaSep, List.flatMap_map]
  rw [hrow]
  induction vs generalizing count with
  | nil => rfl
  | cons v vs ih =>
      have hrest := ih (count + 1) (by simp [rowText, marks_commaSep, List.flatMap_map])
      rw [freshRow, List.flatMap_cons, List.length_append, hrest, valueExpr, D.expr_placeholder]
      simp [Nat.add_comm]

theorem length_marks_rows (backend : Backend) (count : ℕ) (tuples : List (List β)) :
    (marks (commaSep ((freshRows backend count tuples).map (rowText D)))).length =
      tuples.flatten.length := by
  rw [marks_commaSep, List.flatMap_map]
  induction tuples generalizing count with
  | nil => rfl
  | cons tuple tuples ih =>
      rw [freshRows, List.flatMap_cons, List.length_append, ih, marks_rowText_freshRow,
        List.flatten_cons, List.length_append]

/-- The printed template with rows. -/
theorem BatchTemplate.insert_withRows (h : BatchTemplate P i n row) {rows : List (List Expr)}
    (hrows : rows ≠ []) :
    P.insert (withRows i rows) =
      P.insert i.clean ++ .word "VALUES " :: commaSep (rows.map (rowText D)) ++
        i.on.elim [] P.onInsert := by
  have hinsert := P.insert_values { i with returning := none } rows h.columns h.assignments
    h.formatClause h.insertAlias hrows
  simp only [Option.elim_none, List.append_nil] at hinsert
  exact hinsert

theorem BatchTemplate.length_marks (h : BatchTemplate P i n row) (backend : Backend)
    (tuple : List β) (tuples : List (List β)) :
    (marks (P.insert (withRows i (freshRows backend 0 (tuple :: tuples))))).length =
      (tuple :: tuples).flatten.length := by
  have hon : marks (i.on.elim [] P.onInsert) = [] := by
    cases hclause : i.on with
    | none => rfl
    | some clause => exact h.on clause hclause
  rw [h.insert_withRows (by simp [freshRows]), marks_append, marks_append, h.ahead, hon,
    List.nil_append, List.append_nil, marks_word, length_marks_rows]

/-! ### The generated statement -/

section Generated

variable {backend : Backend} (sqlx : SqlxQueryBuilder backend β) {context : GenerationContext}
  {code : MultiInsertCode}

/-- The parts the method is written with. -/
theorem eq_of_generateQueryBuilder (hcode : generateQueryBuilder P context (.insert i) = .ok code) :
    code =
      { emptyReturn := emptyReturn context
        insertPart := render (P.insert i.clean)
        onConflict := i.on.map fun clause => render (P.onInsert clause)
        returning := (i.returning.map fun items => render (returningText D items)).map
          cleanSqlxCastSyntaxForRuntime } := by
  unfold generateQueryBuilder at hcode
  split at hcode
  · cases hcode
  · cases hcode
    rfl

theorem sql_pushOptional (qb : sqlx.Builder) (clause : Option (List Char)) :
    sqlx.sql (MultiInsertCode.pushOptional sqlx qb clause) = sqlx.sql qb ++ clause.getD [] := by
  cases clause with
  | none => exact (List.append_nil _).symm
  | some text => exact sqlx.sql_push qb text

theorem arguments_pushOptional (qb : sqlx.Builder) (clause : Option (List Char)) :
    sqlx.arguments (MultiInsertCode.pushOptional sqlx qb clause) = sqlx.arguments qb := by
  cases clause with
  | none => rfl
  | some text => exact sqlx.arguments_push qb text

/-- The statement that is built around what `pushValues` gives. -/
theorem build_around (hcode : generateQueryBuilder P context (.insert i) = .ok code)
    (qb : sqlx.Builder) :
    sqlx.sql (MultiInsertCode.pushOptional sqlx
        (MultiInsertCode.pushOptional sqlx qb code.onConflict) code.returning) =
      sqlx.sql qb ++ render (i.on.elim [] P.onInsert) ++ returningOf D i := by
  rw [sql_pushOptional, sql_pushOptional, eq_of_generateQueryBuilder hcode, returningOf]
  cases i.on <;> simp [Option.map_map, Function.comp_def]

/-- The statement of a list of tuples inserts what the template inserts for
each of them. -/
theorem BatchTemplate.rowwise (h : BatchTemplate P i n row)
    (hcode : generateQueryBuilder P context (.insert i) = .ok code) (t : Fin n → β)
    (ts : List (Fin n → β)) :
    ∃ qb, code.build sqlx (t :: ts) = some qb ∧
      RowwiseInsert P i row (t :: ts) (sqlx.sql qb) (sqlx.arguments qb) := by
  obtain ⟨qb, hpush, hsql, harguments⟩ := sqlx.pushValues_cons (sqlx.new code.insertPart)
    (List.ofFn t) (ts.map List.ofFn)
  rw [sqlx.sql_new, sqlx.arguments_new, List.length_nil, ← render_freshRows (D := D),
    ← List.map_cons] at hsql
  rw [sqlx.arguments_new, List.nil_append, ← List.map_cons] at harguments
  have hne : freshRows backend 0 ((t :: ts).map List.ofFn) ≠ [] := by simp [freshRows]
  have hinsert := h.insert_withRows hne
  refine ⟨_, by rw [MultiInsertCode.build, List.map_cons, hpush, Option.map_some], ?_⟩
  rw [arguments_pushOptional, arguments_pushOptional, harguments, build_around sqlx hcode, hsql]
  refine ⟨List.flatMap_def.symm, freshRows backend 0 ((t :: ts).map List.ofFn), ?_,
    h.length_marks backend _ _, ?_⟩
  · rw [hinsert, eq_of_generateQueryBuilder hcode]
    simp
  · simp only [h.insertedRows]
    rw [insertedRows_freshRows, ← List.map_eq_flatMap, List.map_map]
    rfl

theorem emptyReturn_eq_none_iff (context : GenerationContext) :
    emptyReturn context = none ↔ context.isGeneric = true ∨ context.fetchMethod = .fetchOne := by
  obtain ⟨isGeneric, fetchMethod, queryType⟩ := context
  cases isGeneric <;> cases fetchMethod <;> cases queryType <;> simp [emptyReturn]

theorem noRows_of_build (hcode : generateQueryBuilder P context (.insert i) = .ok code)
    {qb : sqlx.Builder} (hbuild : code.build sqlx ([] : List (Fin n → β)) = some qb) :
    NoRows P i (sqlx.sql qb) (sqlx.arguments qb) := by
  obtain ⟨qb', hpush, rfl⟩ := Option.map_eq_some_iff.mp hbuild
  obtain ⟨hsql, harguments⟩ := sqlx.pushValues_nil _ _ hpush
  constructor
  · rw [arguments_pushOptional, arguments_pushOptional, harguments, sqlx.arguments_new]
  · rw [build_around sqlx hcode, hsql, sqlx.sql_new, eq_of_generateQueryBuilder hcode]

end Generated

/-! ### Examples -/

namespace BatchExample

/-- Prints an INSERT that has a column list and no row alias. -/
def printer : InsertDisplay Display.reference where
  insert i :=
    .word "INSERT INTO " :: commaSep (i.rest.map Display.reference.expr) ++
      .word (" (" ++ ", ".intercalate (i.columns.map Display.reference.ident) ++ ") ") ::
      (match i.source with
        | some ⟨_, .values rows, _, _, _, _⟩ =>
            .word "VALUES " :: commaSep (rows.map (rowText Display.reference))
        | _ => []) ++
      i.on.elim [] (fun clause =>
        .word clause.form :: commaSep (clause.args.map Display.reference.expr)) ++
      i.returning.elim [] (returningText Display.reference)
  onInsert clause := .word clause.form :: commaSep (clause.args.map Display.reference.expr)
  insert_values i rows hcolumns hassignments hformat halias hrows := by
    simp [Insert.clean, valuesQuery]

/-- A query builder of a debug build, or of one without its assertions. -/
def sqlx (debugAssertions : Bool) (backend : Backend) (β : Type) : SqlxQueryBuilder backend β where
  Builder := List Char × List β
  sql := Prod.fst
  arguments := Prod.snd
  new init := (init, [])
  push qb text := (qb.1 ++ text, qb.2)
  pushValues qb tuples :=
    if debugAssertions ∧ tuples = [] then none
    else
      some (qb.1 ++ "VALUES ".toList ++
        ", ".toList.intercalate (tupleTexts backend qb.2.length tuples), qb.2 ++ tuples.flatten)
  sql_new _ := rfl
  arguments_new _ := rfl
  sql_push _ _ := rfl
  arguments_push _ _ := rfl
  pushValues_cons qb tuple tuples := ⟨_, if_neg (by simp), rfl, rfl⟩
  pushValues_nil qb qb' h := by
    split at h
    · cases h
    · obtain rfl := Option.some.inj h
      simp [tupleTexts]

/-- `$k` -/
def dollar (k : ℕ) : Expr := valueExpr (.placeholder ("$" ++ toString k) (.argument (k - 1)))

/-- `INSERT INTO users (id, email) VALUES (…)` -/
def users (row : List Expr) : Insert where
  columns := [.new "id", .new "email"]
  source := some (valuesQuery [row])
  assignments := []
  formatClause := none
  insertAlias := none
  on := none
  returning := none
  rest := [idExpr "users"]

/-- `ON CONFLICT(id) DO UPDATE SET email = $k` -/
def onConflict (k : ℕ) : OnInsert := ⟨" ON CONFLICT(id) DO UPDATE SET email = ", [dollar k]⟩

def returningId : List SelectItem := [.unnamedExpr (idExpr "id")]

/-- What the method sends to the database. -/
def issued {n : ℕ} (fetchMethod : FetchMethod) (i : Insert) (tuples : List (Fin n → ℕ)) :
    Option (List Char × List ℕ) :=
  match generateQueryBuilder printer ⟨false, fetchMethod, .queryScalar⟩ (.insert i) with
  | .error _ => none
  | .ok code =>
      match code.run (sqlx false .postgres ℕ) tuples with
      | .issued qb => some qb
      | .returned _ | .panicked => none

/-- The tuple of `k` and the numbers behind it. -/
def tupleFrom (n k : ℕ) : Fin n → ℕ := fun j => k + j

/-- `INSERT INTO users (id, email) VALUES ($1, $2) RETURNING id` -/
def inOrder : Insert := { users [dollar 1, dollar 2] with returning := some returningId }

theorem batchTemplate_inOrder : BatchTemplate printer inOrder 2 [dollar 1, dollar 2] :=
  ⟨by simp [inOrder, users], rfl, by decide, rfl, rfl, rfl, by decide, nofun⟩

end BatchExample

end SqlxData.Macros
