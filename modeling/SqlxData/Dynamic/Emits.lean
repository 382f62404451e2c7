import SqlxData.Dynamic.Builder

/-!
What a builder function does to the bind state. `Emits` says that it appends
the same values to any bind list, takes one placeholder for each of them, and
that its failure or its result depends on the counter alone. There is one rule
for each way the functions are put together and one lemma for each function.
-/

namespace SqlxData.Dynamic

open SqlxData.Sqlparser

variable {α β : Type} {cfg : Config}

/-! ### Placeholders taken from the generator -/

/-- The counter after a number of placeholders. -/
def advance (cfg : Config) (n : UInt8) (count : ℕ) : UInt8 :=
  match cfg.backend with
  | .mysql => n
  | _ => n + UInt8.ofNat count

def placeholderText (cfg : Config) (n : UInt8) : String :=
  match cfg.backend with
  | .mysql => "?"
  | _ => "$" ++ toString n.toNat

/-- The placeholders pushed values get, the counter being at `n`. -/
def issued (cfg : Config) : UInt8 → List FilterValue → List Mark
  | _, [] => []
  | n, v :: vs => ⟨placeholderText cfg n, .pushed v⟩ :: issued cfg (advance cfg n 1) vs

@[simp] theorem advance_zero (n : UInt8) : advance cfg n 0 = n := by
  rw [advance]
  split <;> simp

theorem advance_add (n : UInt8) (i j : ℕ) :
    advance cfg (advance cfg n i) j = advance cfg n (i + j) := by
  cases hbackend : cfg.backend <;> simp [advance, hbackend, UInt8.ofNat_add, UInt8.add_assoc]

theorem issued_append (n : UInt8) (vs ws : List FilterValue) :
    issued cfg n (vs ++ ws) = issued cfg n vs ++ issued cfg (advance cfg n vs.length) ws := by
  induction vs generalizing n with
  | nil => simp [issued]
  | cons v vs ih => simp [issued, ih, advance_add, Nat.add_comm]

@[simp] theorem length_issued (n : UInt8) (vs : List FilterValue) :
    (issued cfg n vs).length = vs.length := by
  induction vs generalizing n with
  | nil => rfl
  | cons v vs ih => simp [issued, ih]

theorem issued_eq_nil_iff (n : UInt8) (vs : List FilterValue) :
    issued cfg n vs = [] ↔ vs = [] := by
  rw [← List.length_eq_zero_iff, length_issued, List.length_eq_zero_iff]

theorem map_origin_issued (n : UInt8) (vs : List FilterValue) :
    (issued cfg n vs).map Mark.origin = vs.map .pushed := by
  induction vs generalizing n with
  | nil => rfl
  | cons v vs ih => simp [issued, ih]

theorem getElem?_issued (n : UInt8) (vs : List FilterValue) (j : ℕ) :
    (issued cfg n vs)[j]? =
      vs[j]?.map fun v => ⟨placeholderText cfg (advance cfg n j), .pushed v⟩ := by
  induction vs generalizing n j with
  | nil => simp [issued]
  | cons v vs ih =>
      cases j with
      | zero => simp [issued]
      | succ j => simp [issued, ih, advance_add, Nat.add_comm]

/-! ### Emitting -/

/-- `m` appends `vs` to the bind list; `shape` relates the placeholders taken
to the result. -/
def Emits (cfg : Config) (vs : List FilterValue) (shape : List Mark → α → Prop)
    (m : BuildM α) : Prop :=
  ∀ n, (∃ err, ∀ binds, m.run ⟨binds, n⟩ = .error err) ∨
    ∃ a, shape (issued cfg n vs) a ∧
      ∀ binds, m.run ⟨binds, n⟩ = .ok (a, ⟨binds ++ vs, advance cfg n vs.length⟩)

theorem Emits.mono {vs : List FilterValue} {P Q : List Mark → α → Prop} {m : BuildM α}
    (h : Emits cfg vs P m) (hPQ : ∀ n a, P (issued cfg n vs) a → Q (issued cfg n vs) a) :
    Emits cfg vs Q m := by
  intro n
  rcases h n with herr | ⟨a, ha, hrun⟩
  · exact Or.inl herr
  · exact Or.inr ⟨a, hPQ n a ha, hrun⟩

theorem Emits.cast {vs ws : List FilterValue} {P : List Mark → α → Prop} {m : BuildM α}
    (h : Emits cfg vs P m) (hvs : vs = ws) : Emits cfg ws P m := hvs ▸ h

/-- The state a successful run leaves. -/
theorem Emits.run_eq {vs : List FilterValue} {P : List Mark → α → Prop} {m : BuildM α}
    (h : Emits cfg vs P m) {s s' : BindState} {a : α} (hrun : m.run s = .ok (a, s')) :
    s' = ⟨s.bindValues ++ vs, advance cfg s.n vs.length⟩ := by
  rcases h s.n with ⟨err, herr⟩ | ⟨a', -, hrun'⟩
  · exact absurd (hrun.symm.trans (herr s.bindValues)) (by simp)
  · exact (Prod.mk.inj (Except.ok.inj (hrun.symm.trans (hrun' s.bindValues)))).2

theorem emits_throw (vs : List FilterValue) (P : List Mark → α → Prop) (err : SqlxError) :
    Emits cfg vs P (throw err : BuildM α) := fun _ => Or.inl ⟨err, fun _ => rfl⟩

theorem emits_pure (a : α) : Emits cfg [] (fun ms b => ms = [] ∧ b = a) (pure a : BuildM α) :=
  fun n => Or.inr ⟨a, ⟨rfl, rfl⟩, fun binds => by
    rw [List.append_nil, List.length_nil, advance_zero]
    rfl⟩

theorem emits_bind (v : FilterValue) :
    Emits cfg [v] (fun ms e => ∃ m, ms = [m] ∧ e = valueExpr (.placeholder m.text m.origin))
      (bind cfg v) := by
  intro n
  have hrun : ∀ binds, (bind cfg v).run ⟨binds, n⟩ =
      (nextPlaceholder cfg n).bind fun p =>
        .ok (valueExpr (.placeholder p.1 (.pushed v)), ⟨binds ++ [v], p.2⟩) := fun _ => rfl
  cases hbackend : cfg.backend with
  | mysql =>
      refine Or.inr ⟨_, ⟨_, rfl, rfl⟩, fun binds => ?_⟩
      rw [hrun]
      simp [nextPlaceholder, hbackend, placeholderText, advance, Except.bind]
  | sqlite | postgres =>
      by_cases hover : cfg.overflowChecks ∧ n.toNat + (1 : UInt8).toNat ≥ 2 ^ 8
      · refine Or.inl ⟨overflow, fun binds => ?_⟩
        rw [hrun]
        simp only [nextPlaceholder, hbackend, addU8, if_pos hover]
        rfl
      · refine Or.inr ⟨_, ⟨_, rfl, rfl⟩, fun binds => ?_⟩
        rw [hrun]
        simp only [nextPlaceholder, hbackend, addU8, if_neg hover, placeholderText, advance]
        rfl

theorem Emits.seq {vs ws : List FilterValue} {P : List Mark → α → Prop}
    {Q : α → List Mark → β → Prop} {m : BuildM α} {f : α → BuildM β} (hm : Emits cfg vs P m)
    (hf : ∀ a, Emits cfg ws (Q a) (f a)) :
    Emits cfg (vs ++ ws)
      (fun ms b => ∃ a ms₁ ms₂, ms = ms₁ ++ ms₂ ∧ P ms₁ a ∧ Q a ms₂ b) (m >>= f) := by
  intro n
  rcases hm n with ⟨err, herr⟩ | ⟨a, ha, hrun⟩
  · refine Or.inl ⟨err, fun binds => ?_⟩
    rw [StateT.run_bind, herr]
    rfl
  · rcases hf a (advance cfg n vs.length) with ⟨err, herr⟩ | ⟨b, hb, hrun'⟩
    · refine Or.inl ⟨err, fun binds => ?_⟩
      rw [StateT.run_bind, hrun]
      exact herr (binds ++ vs)
    · refine Or.inr ⟨b, ⟨a, _, _, issued_append n vs ws, ha, hb⟩, fun binds => ?_⟩
      rw [StateT.run_bind, hrun]
      refine (hrun' (binds ++ vs)).trans ?_
      rw [advance_add, List.length_append, List.append_assoc]

/-- A result computed without binding. -/
theorem Emits.map {vs : List FilterValue} {P : List Mark → α → Prop} {Q : List Mark → β → Prop}
    {m : BuildM α} (hm : Emits cfg vs P m) (g : α → β)
    (hg : ∀ n a, P (issued cfg n vs) a → Q (issued cfg n vs) (g a)) :
    Emits cfg vs Q (m >>= fun a => pure (g a)) := by
  refine ((hm.mono (Q := fun ms a => P ms a ∧ Q ms (g a)) fun n a ha => ⟨ha, hg n a ha⟩).seq
    fun a => emits_pure (g a)).cast (List.append_nil vs) |>.mono ?_
  rintro n b ⟨a, ms₁, ms₂, hms, ⟨-, hQ⟩, rfl, rfl⟩
  rwa [hms, List.append_nil]

/-! ### Placeholders of expressions -/

section Marks

variable (D : Display)

theorem marks_commaSep (parts : List (List Tok)) :
    marks (commaSep parts) = parts.flatMap marks := by
  cases parts with
  | nil => rfl
  | cons p ps =>
      have htail : ∀ qs : List (List Tok),
          marks (qs.flatMap (.word ", " :: ·)) = qs.flatMap marks := by
        intro qs
        induction qs with
        | nil => rfl
        | cons q qs ih => simp [ih]
      simp [commaSep, htail]

@[simp] theorem marks_idExpr (name : String) : marks (D.expr (idExpr name)) = [] := by
  simp [idExpr, D.expr_identifier]

@[simp] theorem marks_placeholderExpr (m : Mark) :
    marks (D.expr (valueExpr (.placeholder m.text m.origin))) = [m] := by
  simp [valueExpr, D.expr_placeholder]

@[simp] theorem marks_numberExpr (n : ℕ) : marks (D.expr (numberExpr n)) = [] := by
  simp [numberExpr, valueExpr, D.expr_number]

@[simp] theorem marks_bin (op : BinaryOperator) (l r : Expr) :
    marks (D.expr (bin op l r)) = marks (D.expr l) ++ marks (D.expr r) := by
  simp [bin, D.expr_binaryOp]

@[simp] theorem marks_nested (e : Expr) : marks (D.expr (.nested e)) = marks (D.expr e) := by
  simp [D.expr_nested]

@[simp] theorem marks_grouped (e : Expr) : marks (D.expr (grouped e)) = marks (D.expr e) := by
  rw [grouped]
  split <;> simp

@[simp] theorem marks_lowerExpr (e : Expr) : marks (D.expr (lowerExpr e)) = marks (D.expr e) := by
  simp [lowerExpr, D.expr_call, marks_commaSep]

@[simp] theorem marks_escape_backslash : marks (D.escape (some backslash)) = [] := by
  simp [backslash, D.escape_backslash]

@[simp] theorem marks_escape_escapeChar (backend : Backend) :
    marks (D.escape (escapeChar backend)) = [] := by
  cases backend <;> simp [escapeChar, D.escape_none]

@[simp] theorem marks_like (negated : Bool) (e pattern : Expr) (escapeChar : Option Value) :
    marks (D.expr (.like negated e pattern escapeChar)) =
      marks (D.expr e) ++ marks (D.expr pattern) ++ marks (D.escape escapeChar) := by
  simp [D.expr_like]

@[simp] theorem marks_ilike (negated : Bool) (e pattern : Expr) (escapeChar : Option Value) :
    marks (D.expr (.ilike negated e pattern escapeChar)) =
      marks (D.expr e) ++ marks (D.expr pattern) ++ marks (D.escape escapeChar) := by
  simp [D.expr_ilike]

@[simp] theorem marks_between (col : String) (low high : Expr) (negated : Bool) :
    marks (D.expr (between col low high negated)) =
      marks (D.expr low) ++ marks (D.expr high) := by
  simp [between, D.expr_between]

@[simp] theorem marks_inList (col : String) (values : List Expr) (negated : Bool) :
    marks (D.expr (inList col values negated)) = values.flatMap fun e => marks (D.expr e) := by
  simp [inList, D.expr_inList, marks_commaSep, List.flatMap_map]

@[simp] theorem marks_isNull (col : String) : marks (D.expr (isNull col)) = [] := by
  simp [isNull, D.expr_isNull]

@[simp] theorem marks_isNotNull (col : String) : marks (D.expr (isNotNull col)) = [] := by
  simp [isNotNull, D.expr_isNotNull]

theorem marks_foldl (op : Expr → Expr → Expr)
    (hop : ∀ l r, marks (D.expr (op l r)) = marks (D.expr l) ++ marks (D.expr r))
    (e : Expr) (es : List Expr) :
    marks (D.expr (es.foldl op e)) = (e :: es).flatMap fun e => marks (D.expr e) := by
  induction es generalizing e with
  | nil => simp
  | cons e' es ih => simp [ih, hop]

/-- Joining conditions keeps their placeholders in order. -/
theorem marks_reduce (op : Expr → Expr → Expr)
    (hop : ∀ l r, marks (D.expr (op l r)) = marks (D.expr l) ++ marks (D.expr r))
    (es : List Expr) :
    ((reduce op es).toList.flatMap fun e => marks (D.expr e)) =
      es.flatMap fun e => marks (D.expr e) := by
  cases es with
  | nil => rfl
  | cons e es => simpa [reduce] using marks_foldl D op hop e es

theorem marks_combined (parts : DynamicParts) :
    (parts.combined.toList.flatMap fun e => marks (D.expr e)) =
      (parts.filters ++ parts.search ++ parts.cursor.toList).flatMap
        fun e => marks (D.expr e) := by
  rw [DynamicParts.combined, marks_reduce D groupedAnd fun l r => by simp [groupedAnd]]
  simp only [List.flatMap_append]
  rw [marks_reduce D and fun l r => by simp [and], marks_reduce D or fun l r => by simp [or]]

end Marks

/-! ### What each function emits -/

section Functions

variable (D : Display)

/-- The expression shows the placeholders in this order, each of them once. -/
def Shows (ms : List Mark) (e : Expr) : Prop := marks (D.expr e) = ms

def ShowAll (ms : List Mark) (es : List Expr) : Prop := (es.flatMap fun e => marks (D.expr e)) = ms

/-- The expression shows these placeholders, in whatever order. -/
def ShowsSome (ms : List Mark) (e : Expr) : Prop := ∀ m, m ∈ marks (D.expr e) ↔ m ∈ ms

theorem emits_bind_shows (v : FilterValue) : Emits cfg [v] (Shows D) (bind cfg v) := by
  refine (emits_bind v).mono ?_
  rintro n e ⟨m, hm, rfl⟩
  rw [Shows, marks_placeholderExpr, hm]

theorem emits_bind_map {Q : List Mark → β → Prop} (v : FilterValue) (g : Expr → β)
    (hg : ∀ ms e, Shows D ms e → Q ms (g e)) :
    Emits cfg [v] Q (bind cfg v >>= fun e => pure (g e)) :=
  (emits_bind_shows D v).map g fun _ _ => hg _ _

theorem emits_pure_expr {e : Expr} (he : marks (D.expr e) = []) :
    Emits cfg [] (Shows D) (pure e : BuildM Expr) := by
  refine (emits_pure e).mono ?_
  rintro n _ ⟨hms, rfl⟩
  rw [Shows, hms, he]

theorem emits_mapM {γ : Type} (f : γ → BuildM Expr) (values : γ → List FilterValue)
    (hf : ∀ x, Emits cfg (values x) (Shows D) (f x)) (xs : List γ) :
    Emits cfg (xs.flatMap values) (ShowAll D) (xs.mapM f) := by
  induction xs with
  | nil =>
      refine (emits_pure []).mono ?_
      rintro n _ ⟨hms, rfl⟩
      rw [ShowAll, hms, List.flatMap_nil]
  | cons x xs ih =>
      rw [List.mapM_cons, List.flatMap_cons]
      refine ((hf x).seq fun e => ih.map (e :: ·) (Q := fun ms es =>
        ∃ es', es = e :: es' ∧ ShowAll D ms es') fun n es hes => ⟨es, rfl, hes⟩).mono ?_
      rintro n _ ⟨e, ms₁, ms₂, hms, he, es, rfl, hes⟩
      rw [ShowAll, List.flatMap_cons, he, hes, hms]

/-- The values a filter binds. -/
def filterValues (cfg : Config) (filter : Filter) : List FilterValue :=
  match filter.operator with
  | .isNull => []
  | .isNotNull => []
  | .between | .in | .notIn =>
      match filter.value with
      | .array values => values
      | _ => []
  | .contains =>
      match filter.value with
      | .string s => [.string ("%" ++ s ++ "%")]
      | _ => []
  | .iLike =>
      match cfg.backend, filter.value with
      | .postgres, value => [value]
      | _, .string s => [.string (cfg.toLowercase s)]
      | _, value => [value]
  | _ => [filter.value]

theorem emits_inListFilter (operator : String) (filter : Filter) (values : List FilterValue)
    (hvalues : ∀ arr, filter.value = .array arr → values = arr) :
    Emits cfg values (Shows D) (inListFilter cfg operator filter) := by
  rw [inListFilter]
  split
  · rename_i arr harr
    obtain rfl := hvalues arr harr
    split
    · exact emits_throw _ _ _
    · refine ((emits_mapM D (bind cfg) (fun v => [v]) (emits_bind_shows D) values).cast
        (by simp)).map _ fun n es hes => ?_
      rw [Shows, marks_inList]
      exact hes
  · exact emits_throw _ _ _

theorem emits_filterExpr (filter : Filter) :
    Emits cfg (filterValues cfg filter) (Shows D) (filterExpr cfg filter) := by
  obtain ⟨field, operator, value, negated⟩ := filter
  cases operator with
  | eq | ne | gt | gte | lt | lte =>
      exact emits_bind_map D value _ fun ms e he => by
        simpa [Shows, eq, ne, gt, gte, lt, lte] using he
  | like =>
      exact emits_bind_map D value _ fun ms e he => by simpa [Shows, like] using he
  | unsafeLike =>
      exact emits_bind_map D value _ fun ms e he => by
        simpa [Shows, unsafeLike, D.escape_none] using he
  | iLike =>
      have hlower : ∀ v, Emits cfg [v] (Shows D) (bind cfg v >>= fun e =>
          pure (likeExpr cfg.backend (lowerExpr (idExpr field)) e)) := fun v =>
        emits_bind_map D v _ fun ms e he => by simpa [Shows, likeExpr] using he
      cases hbackend : cfg.backend with
      | postgres =>
          simp only [filterExpr, filterValues, hbackend]
          exact emits_bind_map D value _ fun ms e he => by simpa [Shows, ilike] using he
      | sqlite | mysql =>
          simp only [filterExpr, filterValues, hbackend]
          rw [hbackend] at hlower
          cases value <;> exact hlower _
  | between =>
      cases value with
      | array arr =>
          rcases arr with _ | ⟨low, _ | ⟨high, _ | ⟨third, rest⟩⟩⟩
          · exact emits_throw _ _ _
          · exact emits_throw _ _ _
          · refine ((emits_bind_shows D low).seq fun lowPh => emits_bind_map D high
              (Q := fun ms e => ∃ highPh, Shows D ms highPh ∧ e = between field lowPh highPh negated)
              _ fun ms e he => ⟨e, he, rfl⟩).mono ?_
            rintro n _ ⟨lowPh, ms₁, ms₂, hms, hlow, highPh, hhigh, rfl⟩
            rw [Shows, marks_between, hlow, hhigh, hms]
          · exact emits_throw _ _ _
      | _ => exact emits_throw _ _ _
  | isNull => exact emits_pure_expr D (by simp)
  | isNotNull => exact emits_pure_expr D (by simp)
  | «in» =>
      refine emits_inListFilter D "In" _ _ ?_
      rintro arr rfl
      rfl
  | notIn =>
      refine emits_inListFilter D "NotIn" _ _ ?_
      rintro arr rfl
      rfl
  | contains =>
      cases value with
      | string s => exact emits_bind_map D _ _ fun ms e he => by simpa [Shows, like] using he
      | _ => exact emits_throw _ _ _

/-- The values a search binds, one for each field. -/
def searchValues (search : SearchParams) : List FilterValue :=
  if !search.fields.isEmpty && !search.query.isEmpty then
    search.fields.map fun _ =>
      .string (if search.exactMatch then search.query else "%" ++ search.query ++ "%")
  else
    []

theorem emits_searchFieldExpr (search : SearchParams) (pattern field : String) :
    Emits cfg [.string pattern] (Shows D) (searchFieldExpr cfg search pattern field) := by
  cases hcase : search.caseSensitive with
  | true =>
      simp only [searchFieldExpr, hcase, if_true]
      exact emits_bind_map D _ _ fun ms e he => by simpa [Shows, like] using he
  | false =>
      simp only [searchFieldExpr, hcase, Bool.false_eq_true, if_false]
      exact emits_bind_map D _ _ fun ms e he => by simpa [Shows, likeExpr] using he

theorem emits_searchExprs (search : SearchParams) :
    Emits cfg (searchValues search) (ShowAll D) (searchExprs cfg search) := by
  rw [searchExprs, searchValues]
  split
  · exact (emits_mapM D _ _ (emits_searchFieldExpr D search _) search.fields).cast
      List.map_eq_flatMap.symm
  · refine (emits_pure []).mono ?_
    rintro n _ ⟨hms, rfl⟩
    rw [ShowAll, hms, List.flatMap_nil]

/-- The values the cursor condition binds; MySQL binds all but the last a
second time, behind those of the following fields. -/
def cursorConditionValues (cfg : Config) : List SortField → List FilterValue → List FilterValue
  | [], _ => []
  | _ :: _, [] => []
  | [_], v :: _ => [v]
  | _ :: sort :: sorts, v :: values =>
      v :: cursorConditionValues cfg (sort :: sorts) values ++
        if cfg.backend = .mysql then [v] else []

theorem emits_cursorConditionRecursive (direction : CursorDirection) (sorts : List SortField)
    (values : List FilterValue) :
    Emits cfg (cursorConditionValues cfg sorts values) (ShowsSome D)
      (buildCursorConditionRecursive cfg direction sorts values) := by
  induction sorts generalizing values with
  | nil => exact emits_throw _ _ _
  | cons sort sorts ih =>
      rcases values with _ | ⟨v, values⟩
      · exact emits_throw _ _ _
      rcases sorts with _ | ⟨sort', sorts⟩
      · exact emits_bind_map D v _ fun ms e he m => by
          rw [← show marks (D.expr e) = ms from he, marks_bin, marks_idExpr, List.nil_append]
      have heq : ∀ value : Expr, Emits cfg (if cfg.backend = .mysql then [v] else [])
          (fun ms e => ms = [] ∧ e = value ∨ Shows D ms e)
          (eqPlaceholder cfg v value) := by
        intro value
        unfold eqPlaceholder
        split
        · exact (emits_bind_shows D v).mono fun _ _ => Or.inr
        · exact (emits_pure value).mono fun _ _ => Or.inl
      refine (((emits_bind_shows D v).seq fun value => (ih values).seq fun rest =>
        (heq value).map (Q := fun ms e => ∃ eqValue,
          (ms = [] ∧ eqValue = value ∨ Shows D ms eqValue) ∧
            e = cursorAlternative direction sort value eqValue rest sorts.isEmpty) _
            fun n e he => ⟨e, he, rfl⟩).cast ?_).mono ?_
      · simp [cursorConditionValues]
      · rintro n _ ⟨value, ms₁, _, hms, hvalue, rest, ms₂, ms₃, rfl, hrest, eqValue, heqValue, rfl⟩
        have hwrapped : marks (D.expr (if sorts.isEmpty then rest else .nested rest)) =
            marks (D.expr rest) := by
          split <;> simp
        intro m
        rw [cursorAlternative, or, marks_bin, marks_bin, marks_nested, and, marks_bin, marks_bin,
          hwrapped, hms]
        simp only [marks_idExpr, List.nil_append, List.mem_append, hrest m]
        rw [← show marks (D.expr value) = ms₁ from hvalue]
        rcases heqValue with ⟨rfl, rfl⟩ | heqValue
        · simp only [List.not_mem_nil, or_false]
          tauto
        · rw [← show marks (D.expr eqValue) = ms₃ from heqValue]
          tauto

/-- The values a cursor binds. -/
def cursorValues (cfg : Config) (sortBy : Option SortingParams) (cursor : CursorParams) :
    List FilterValue :=
  match sortBy with
  | none => []
  | some sortBy => cursorConditionValues cfg sortBy.sorts cursor.values

theorem emits_cursorExpr (sortBy : Option SortingParams) (cursor : CursorParams) :
    Emits cfg (cursorValues cfg sortBy cursor) (ShowsSome D) (cursorExpr cfg sortBy cursor) := by
  unfold cursorExpr
  split
  · exact emits_throw _ _ _
  cases sortBy with
  | none => exact emits_throw _ _ _
  | some sortBy =>
      simp only [cursorValues]
      split
      · exact emits_throw _ _ _
      cases cursor.direction with
      | none => exact emits_throw _ _ _
      | some direction =>
          simp only
          split
          · rename_i hsorts hvalues
            rw [hsorts, hvalues]
            exact emits_cursorConditionRecursive D direction [_] [_]
          · exact emits_cursorConditionRecursive D direction _ _

/-! ### SELECT and set expressions -/

def filterParamsValues (cfg : Config) : Option FilterParams → List FilterValue
  | some filterParams => filterParams.filters.flatMap (filterValues cfg)
  | none => []

def searchParamsValues : Option SearchParams → List FilterValue
  | some search => searchValues search
  | none => []

def paginationValues (cfg : Config) (sortBy : Option SortingParams) :
    Option Pagination → List FilterValue
  | some (.cursor cursor) => if cursor.isEmpty then [] else cursorValues cfg sortBy cursor
  | _ => []

/-- The values one SELECT binds. -/
def selectValues (cfg : Config) (params : Params) : List FilterValue :=
  filterParamsValues cfg params.filters ++ (searchParamsValues params.search ++
    paginationValues cfg params.sortBy params.pagination)

/-- The request is for a cursor page after the first one. -/
def HasCursor (params : Params) : Prop :=
  ∃ cursor, params.pagination = some (.cursor cursor) ∧ cursor.isEmpty = false

/-- The parts show the placeholders in order, but for those of a cursor. -/
def PartsShow (params : Params) (ms : List Mark) (parts : DynamicParts) : Prop :=
  ∃ ms₁ ms₂ ms₃, ms = ms₁ ++ (ms₂ ++ ms₃) ∧ ShowAll D ms₁ parts.filters ∧
    ShowAll D ms₂ parts.search ∧
    ((∃ e, parts.cursor = some e ∧ HasCursor params ∧ ShowsSome D ms₃ e) ∨
      parts.cursor = none ∧ ms₃ = [])

theorem emits_pure_nil : Emits cfg [] (ShowAll D) (pure [] : BuildM (List Expr)) := by
  refine (emits_pure []).mono ?_
  rintro n _ ⟨hms, rfl⟩
  rw [ShowAll, hms, List.flatMap_nil]

theorem emits_filterExprs (filters : Option FilterParams) :
    Emits cfg (filterParamsValues cfg filters) (ShowAll D) (filterExprs cfg filters) := by
  cases filters with
  | none => exact emits_pure_nil D
  | some filterParams => exact emits_mapM D _ _ (emits_filterExpr D) filterParams.filters

theorem emits_searchCondition (search : Option SearchParams) :
    Emits cfg (searchParamsValues search) (ShowAll D) (searchCondition cfg search) := by
  cases search with
  | none => exact emits_pure_nil D
  | some search => exact emits_searchExprs D search

theorem emits_cursorCondition (params : Params) :
    Emits cfg (paginationValues cfg params.sortBy params.pagination)
      (fun ms condition => (∃ e, condition = some e ∧ HasCursor params ∧ ShowsSome D ms e) ∨
        condition = none ∧ ms = [])
      (cursorCondition cfg params.sortBy params.pagination) := by
  have hnone : Emits cfg [] (fun ms condition =>
      (∃ e, condition = some e ∧ HasCursor params ∧ ShowsSome D ms e) ∨
        condition = none ∧ ms = []) (pure none : BuildM (Option Expr)) :=
    (emits_pure none).mono fun n _ h => Or.inr ⟨h.2, h.1⟩
  rcases hpagination : params.pagination with _ | _ | _ | cursor
  · exact hnone
  · exact hnone
  · exact hnone
  cases hcursor : cursor.isEmpty with
  | true => simpa [cursorCondition, paginationValues, hcursor] using hnone
  | false =>
      simp only [cursorCondition, paginationValues, hcursor, Bool.false_eq_true, if_false]
      exact (emits_cursorExpr D params.sortBy cursor).map some fun n e he =>
        Or.inl ⟨e, rfl, ⟨cursor, hpagination, hcursor⟩, he⟩

theorem emits_dynamicParts (params : Params) :
    Emits cfg (selectValues cfg params) (PartsShow D params) (dynamicParts cfg params) := by
  refine ((emits_filterExprs D params.filters).seq fun filters =>
    (emits_searchCondition D params.search).seq fun search =>
      (emits_cursorCondition D params).map (Q := fun ms parts => ∃ cursor,
        ((∃ e, cursor = some e ∧ HasCursor params ∧ ShowsSome D ms e) ∨
          cursor = none ∧ ms = []) ∧ parts = ⟨filters, search, cursor⟩) _
            fun n cursor h => ⟨cursor, h, rfl⟩).mono ?_
  rintro n _ ⟨filters, ms₁, _, hms, hfilters, search, ms₂, ms₃, rfl, hsearch, cursor, hcursor, rfl⟩
  exact ⟨ms₁, ms₂, ms₃, hms, hfilters, hsearch, hcursor⟩

theorem emits_processSelect (params : Params) (select : Select) :
    Emits cfg (selectValues cfg params)
      (fun ms select' => ∃ parts, PartsShow D params ms parts ∧
        select' = { select with selection := withDynamicWhere select.selection parts.combined })
      (processSelect cfg params select) :=
  (emits_dynamicParts D params).map _ fun _ parts h => ⟨parts, h, rfl⟩

end Functions

end SqlxData.Dynamic
