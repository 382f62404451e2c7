import SqlxData.Dynamic.Success
import SqlxData.Dynamic.NumberedBinds

/-!
The numbers of generated placeholders: how many placeholders a run of
`process_query` takes from its generator, and when their numbers are new.
-/

namespace SqlxData.Dynamic

open SqlxData.Sqlparser SqlxData.Core

variable {α β : Type} {cfg : Config}

/-! ### The generator -/

/-- The placeholders of `calls` calls of the generator, and its counter after
them. -/
def generate (cfg : Config) : ℕ → UInt8 → Except SqlxError (List String × UInt8)
  | 0, n => .ok ([], n)
  | calls + 1, n => do
      let (placeholder, next) ← nextPlaceholder cfg n
      let (rest, last) ← generate cfg calls next
      .ok (placeholder :: rest, last)

theorem nextPlaceholder_of_fits {n : UInt8} (h : Fits cfg n 1) :
    nextPlaceholder cfg n = .ok (placeholderText cfg n, advance cfg n 1) := by
  cases hbackend : cfg.backend with
  | mysql => simp only [nextPlaceholder, placeholderText, advance, hbackend]
  | sqlite | postgres =>
      have hsum : ¬(cfg.overflowChecks ∧ n.toNat + (1 : UInt8).toNat ≥ 2 ^ 8) := by
        rintro ⟨hchecks, hover⟩
        simp only [UInt8.toNat_one] at hover
        rcases h with h | h | h
        · simp [hbackend] at h
        · simp [hchecks] at h
        · omega
      simp only [nextPlaceholder, placeholderText, advance, hbackend, addU8, if_neg hsum]
      rfl

theorem nextPlaceholder_of_not_fits {n : UInt8} (h : ¬Fits cfg n 1) :
    nextPlaceholder cfg n = .error overflow := by
  obtain ⟨hmysql, hchecks, hover⟩ : cfg.backend ≠ .mysql ∧ cfg.overflowChecks = true ∧
      ¬n.toNat + 1 < 2 ^ 8 := by simpa [Fits] using h
  have hsum : cfg.overflowChecks ∧ n.toNat + (1 : UInt8).toNat ≥ 2 ^ 8 := by
    rw [UInt8.toNat_one]
    exact ⟨hchecks, by omega⟩
  cases hbackend : cfg.backend with
  | mysql => exact (hmysql hbackend).elim
  | sqlite | postgres =>
      simp only [nextPlaceholder, hbackend, addU8, if_pos hsum]
      rfl

theorem fits_succ (n : UInt8) (calls : ℕ) :
    Fits cfg n (calls + 1) ↔ Fits cfg n 1 ∧ Fits cfg (advance cfg n 1) calls := by
  rw [Nat.add_comm, fits_add]

theorem generate_of_fits {calls : ℕ} {n : UInt8} (h : Fits cfg n calls) :
    generate cfg calls n =
      .ok ((List.range calls).map fun j => placeholderText cfg (advance cfg n j),
        advance cfg n calls) := by
  induction calls generalizing n with
  | zero => simp [generate]
  | succ calls ih =>
      obtain ⟨hone, hrest⟩ := (fits_succ n calls).mp h
      rw [generate, nextPlaceholder_of_fits hone]
      simp only [Bind.bind, Except.bind, ih hrest, advance_add, List.range_succ_eq_map,
        List.map_cons, List.map_map, advance_zero, Nat.add_comm 1]
      rfl

theorem generate_of_not_fits {calls : ℕ} {n : UInt8} (h : ¬Fits cfg n calls) :
    generate cfg calls n = .error overflow := by
  induction calls generalizing n with
  | zero => exact absurd (fits_zero cfg n) h
  | succ calls ih =>
      rw [fits_succ, not_and_or] at h
      rw [generate]
      by_cases hone : Fits cfg n 1
      · rw [nextPlaceholder_of_fits hone]
        simp only [Bind.bind, Except.bind, ih (h.resolve_left (not_not_intro hone))]
      · rw [nextPlaceholder_of_not_fits hone]
        rfl

/-! ### How many placeholders are taken -/

/-- How many placeholders a step takes before it ends, and whether it ends
without an error of its own. -/
structure Calls where
  count : ℕ
  completed : Bool
  deriving DecidableEq, Repr

namespace Calls

def rejected : Calls := ⟨0, false⟩

def ofCount (count : ℕ) : Calls := ⟨count, true⟩

/-- The second step is made when the first completes. -/
def andThen (c d : Calls) : Calls := if c.completed then ⟨c.count + d.count, d.completed⟩ else c

def sum (cs : List Calls) : Calls := cs.foldr andThen (ofCount 0)

theorem andThen_zero (c : Calls) : c.andThen (ofCount 0) = c := by
  obtain ⟨count, _ | _⟩ := c <;> rfl

theorem sum_replicate_one (count : ℕ) : sum (List.replicate count (ofCount 1)) = ofCount count := by
  induction count with
  | zero => rfl
  | succ count ih =>
      rw [List.replicate_succ, sum, List.foldr_cons, ← sum, ih]
      simp [andThen, ofCount, Nat.add_comm]

end Calls

def filterCalls (cfg : Config) (filter : Filter) : Calls :=
  if filter.accepted then .ofCount (filterValues cfg filter).length else .rejected

def filtersCalls (cfg : Config) (filters : Option FilterParams) : Calls :=
  .sum ((filters.elim [] (·.filters)).map (filterCalls cfg))

/-- The cursor has no error, a direction, and a value for each sort field. -/
def cursorAccepted (sortBy : Option SortingParams) (cursor : CursorParams) : Bool :=
  !cursor.hasError && cursor.direction.isSome &&
    sortBy.any fun sortBy => sortBy.sorts.length == cursor.len

def paginationCalls (cfg : Config) (sortBy : Option SortingParams) : Option Pagination → Calls
  | some (.cursor cursor) =>
      if cursor.isEmpty then .ofCount 0
      else if cursorAccepted sortBy cursor then .ofCount (cursorValues cfg sortBy cursor).length
      else .rejected
  | _ => .ofCount 0

def selectCalls (cfg : Config) (params : Params) : Calls :=
  (filtersCalls cfg params.filters).andThen
    ((Calls.ofCount (searchParamsValues params.search).length).andThen
      (paginationCalls cfg params.sortBy params.pagination))

/-- The placeholders a run takes for the SELECTs of a query body. -/
def setExprCalls (cfg : Config) (params : Params) : SetExpr → Calls
  | .select _ => selectCalls cfg params
  | .setOperation _ _ left right =>
      (setExprCalls cfg params left).andThen (setExprCalls cfg params right)
  | .query ⟨_, body, _, _, _, _⟩ => setExprCalls cfg params body
  | _ => .ofCount 0

/-- `m` takes these placeholders: it ends with an overflow exactly when the
counter has no room for them, else as `calls` says, one value pushed for each
placeholder. -/
structure Makes (cfg : Config) (calls : Calls) (m : BuildM α) : Prop where
  completes : ∀ s, calls.completed → Fits cfg s.n calls.count →
    ∃ a vs, vs.length = calls.count ∧
      m.run s = .ok (a, ⟨s.bindValues ++ vs, advance cfg s.n calls.count⟩)
  rejects : ∀ s, calls.completed = false → Fits cfg s.n calls.count →
    ∃ err, err ≠ overflow ∧ m.run s = .error err
  overflows : ∀ s, ¬Fits cfg s.n calls.count → m.run s = .error overflow

theorem makes_throw {err : SqlxError} (herr : err ≠ overflow) :
    Makes cfg .rejected (throw err : BuildM α) where
  completes _ h := absurd h (by decide)
  rejects _ _ _ := ⟨err, herr, rfl⟩
  overflows s h := absurd (fits_zero cfg s.n) h

theorem makes_pure (a : α) : Makes cfg (.ofCount 0) (pure a : BuildM α) where
  completes s _ _ := ⟨a, [], rfl, by
    change _ = Except.ok (a, BindState.mk (s.bindValues ++ []) (advance cfg s.n 0))
    rw [List.append_nil, advance_zero]
    rfl⟩
  rejects _ h := absurd h (by decide)
  overflows s h := absurd (fits_zero cfg s.n) h

theorem makes_bind (v : FilterValue) : Makes cfg (.ofCount 1) (bind cfg v) where
  completes s _ h := ⟨_, [v], rfl, by
    change (nextPlaceholder cfg s.n).bind _ = _
    rw [nextPlaceholder_of_fits h]
    rfl⟩
  rejects _ h := absurd h (by decide)
  overflows s h := by
    change (nextPlaceholder cfg s.n).bind _ = _
    rw [nextPlaceholder_of_not_fits h]
    rfl

theorem Makes.seq {c d : Calls} {m : BuildM α} {f : α → BuildM β} (hm : Makes cfg c m)
    (hf : ∀ a, Makes cfg d (f a)) : Makes cfg (c.andThen d) (m >>= f) := by
  obtain ⟨count, completed⟩ := c
  cases completed with
  | false =>
      have hcalls : Calls.andThen ⟨count, false⟩ d = ⟨count, false⟩ := rfl
      rw [hcalls]
      refine ⟨fun s h => absurd h (by simp), fun s h hfits => ?_, fun s h => ?_⟩
      · obtain ⟨err, herr, hrun⟩ := hm.rejects s h hfits
        exact ⟨err, herr, by rw [StateT.run_bind, hrun]; rfl⟩
      · rw [StateT.run_bind, hm.overflows s h]
        rfl
  | true =>
      have hcalls : Calls.andThen ⟨count, true⟩ d = ⟨count + d.count, d.completed⟩ := rfl
      rw [hcalls]
      -- The first step completes when there is room for both.
      have hfirst : ∀ s : BindState, Fits cfg s.n count → ∃ a vs, vs.length = count ∧
          (m >>= f).run s = (f a).run ⟨s.bindValues ++ vs, advance cfg s.n count⟩ := by
        intro s h
        obtain ⟨a, vs, hvs, hrun⟩ := hm.completes s rfl h
        exact ⟨a, vs, hvs, by rw [StateT.run_bind, hrun]; rfl⟩
      refine ⟨fun s h hfits => ?_, fun s h hfits => ?_, fun s h => ?_⟩
      · obtain ⟨hc, hd⟩ := (fits_add s.n count d.count).mp hfits
        obtain ⟨a, vs, hvs, hrun⟩ := hfirst s hc
        obtain ⟨b, ws, hws, hrun'⟩ :=
          (hf a).completes ⟨s.bindValues ++ vs, advance cfg s.n count⟩ h hd
        refine ⟨b, vs ++ ws, by rw [List.length_append, hvs, hws], (hrun.trans hrun').trans ?_⟩
        rw [advance_add, List.append_assoc]
      · obtain ⟨hc, hd⟩ := (fits_add s.n count d.count).mp hfits
        obtain ⟨a, vs, -, hrun⟩ := hfirst s hc
        obtain ⟨err, herr, hrun'⟩ :=
          (hf a).rejects ⟨s.bindValues ++ vs, advance cfg s.n count⟩ h hd
        exact ⟨err, herr, hrun.trans hrun'⟩
      · by_cases hc : Fits cfg s.n count
        · obtain ⟨a, vs, -, hrun⟩ := hfirst s hc
          have hd : ¬Fits cfg (advance cfg s.n count) d.count := fun hd =>
            h ((fits_add s.n count d.count).mpr ⟨hc, hd⟩)
          exact hrun.trans ((hf a).overflows _ hd)
        · rw [StateT.run_bind, hm.overflows s hc]
          rfl

theorem Makes.map {c : Calls} {m : BuildM α} (hm : Makes cfg c m) (g : α → β) :
    Makes cfg c (m >>= fun a => pure (g a)) := by
  simpa only [Calls.andThen_zero] using hm.seq fun a => makes_pure (g a)

theorem Makes.cast {c d : Calls} {m : BuildM α} (hm : Makes cfg c m) (h : c = d) :
    Makes cfg d m := h ▸ hm

theorem makes_mapM {γ : Type} {calls : γ → Calls} {f : γ → BuildM α}
    (hf : ∀ x, Makes cfg (calls x) (f x)) (xs : List γ) :
    Makes cfg (.sum (xs.map calls)) (xs.mapM f) := by
  induction xs with
  | nil => exact makes_pure []
  | cons x xs ih =>
      rw [List.mapM_cons]
      exact (hf x).seq fun a => ih.map (a :: ·)

theorem invalidArgument_ne_overflow (msg : String) : invalidArgument msg ≠ overflow :=
  SqlxError.noConfusion

theorem arrayRequired_ne_overflow (operator : String) (value : FilterValue) :
    arrayRequired operator value ≠ overflow := SqlxError.noConfusion

theorem makes_inListFilter (operator : String) {f : Filter}
    (hoperator : f.operator = .in ∨ f.operator = .notIn) :
    Makes cfg (filterCalls cfg f) (inListFilter cfg operator f) := by
  obtain ⟨field, op, value, negated⟩ := f
  cases value with
  | array values =>
      have hcalls : filterCalls cfg ⟨field, op, .array values, negated⟩ =
          if values.isEmpty then .rejected else .ofCount values.length := by
        rcases hoperator with rfl | rfl <;> cases values <;> rfl
      rw [hcalls]
      simp only [inListFilter]
      cases values.isEmpty with
      | true => exact makes_throw (invalidArgument_ne_overflow _)
      | false =>
          simp only [Bool.false_eq_true, if_false]
          refine ((makes_mapM makes_bind values).map _).cast ?_
          rw [List.map_const', Calls.sum_replicate_one]
  | _ =>
      have hcalls : ∀ v, (∀ arr, v ≠ .array arr) →
          filterCalls cfg ⟨field, op, v, negated⟩ = .rejected := by
        intro v hv
        rcases hoperator with rfl | rfl <;> cases v <;> first | rfl | exact absurd rfl (hv _)
      rw [hcalls _ (by simp)]
      exact makes_throw (arrayRequired_ne_overflow _ _)

theorem makes_filterExpr (f : Filter) : Makes cfg (filterCalls cfg f) (filterExpr cfg f) := by
  obtain ⟨field, operator, value, negated⟩ := f
  have hone : ∀ v (g : Expr → Expr), Makes cfg (.ofCount 1)
      (bind cfg v >>= fun e => pure (g e)) := fun v g => (makes_bind v).map g
  cases operator with
  | eq | ne | gt | gte | lt | lte | like | unsafeLike => exact hone value _
  | iLike =>
      cases hbackend : cfg.backend with
      | postgres =>
          have hcalls : filterCalls cfg ⟨field, .iLike, value, negated⟩ = .ofCount 1 := by
            simp [filterCalls, Filter.accepted, filterValues, hbackend]
          simp only [filterExpr, hcalls, hbackend]
          exact hone value _
      | sqlite | mysql =>
          have hcalls : filterCalls cfg ⟨field, .iLike, value, negated⟩ = .ofCount 1 := by
            cases value <;> simp [filterCalls, Filter.accepted, filterValues, hbackend]
          simp only [filterExpr, hcalls, hbackend]
          exact hone _ _
  | between =>
      cases value with
      | array arr =>
          rcases arr with _ | ⟨low, _ | ⟨high, _ | ⟨third, rest⟩⟩⟩
          · exact makes_throw (invalidArgument_ne_overflow _)
          · exact makes_throw (invalidArgument_ne_overflow _)
          · exact (makes_bind low).seq fun lowPh => hone high _
          · exact makes_throw (invalidArgument_ne_overflow _)
      | _ => exact makes_throw (arrayRequired_ne_overflow _ _)
  | isNull | isNotNull => exact makes_pure _
  | «in» => exact makes_inListFilter "In" (.inl rfl)
  | notIn => exact makes_inListFilter "NotIn" (.inr rfl)
  | contains =>
      cases value with
      | string s => exact hone _ _
      | _ => exact makes_throw (invalidArgument_ne_overflow _)

theorem makes_filterExprs (filters : Option FilterParams) :
    Makes cfg (filtersCalls cfg filters) (filterExprs cfg filters) := by
  cases filters with
  | none => exact makes_pure []
  | some filterParams => exact makes_mapM makes_filterExpr filterParams.filters

theorem makes_searchFieldExpr (search : SearchParams) (pattern field : String) :
    Makes cfg (.ofCount 1) (searchFieldExpr cfg search pattern field) := by
  cases hcase : search.caseSensitive <;>
    simp only [searchFieldExpr, hcase, if_true, Bool.false_eq_true, if_false] <;>
    exact (makes_bind _).map _

theorem makes_searchCondition (search : Option SearchParams) :
    Makes cfg (.ofCount (searchParamsValues search).length) (searchCondition cfg search) := by
  cases search with
  | none => exact makes_pure []
  | some search =>
      rw [searchCondition, searchExprs, searchParamsValues, searchValues]
      split
      · refine (makes_mapM (makes_searchFieldExpr search _) search.fields).cast ?_
        rw [List.map_const', Calls.sum_replicate_one, List.length_map]
      · exact makes_pure []

theorem makes_cursorConditionRecursive (direction : CursorDirection) {sorts : List SortField}
    {values : List FilterValue} (hlength : sorts.length = values.length) (hne : values ≠ []) :
    Makes cfg (.ofCount (cursorConditionValues cfg sorts values).length)
      (buildCursorConditionRecursive cfg direction sorts values) := by
  induction sorts generalizing values with
  | nil => exact absurd (List.length_eq_zero_iff.mp hlength.symm) hne
  | cons sort sorts ih =>
      obtain ⟨v, values, rfl⟩ := List.exists_cons_of_ne_nil hne
      rcases sorts with _ | ⟨sort', sorts⟩
      · exact (makes_bind v).map _
      have hlength' : (sort' :: sorts).length = values.length := by simpa using hlength
      have hne' : values ≠ [] := by
        rintro rfl
        simp at hlength'
      have heq : ∀ value : Expr, Makes cfg (.ofCount (if cfg.backend = .mysql then [v] else []).length)
          (eqPlaceholder cfg v value) := by
        intro value
        unfold eqPlaceholder
        split
        · exact makes_bind v
        · exact makes_pure value
      refine ((makes_bind v).seq fun value => (ih hlength' hne').seq fun rest =>
        (heq value).map _).cast ?_
      simp only [Calls.andThen, Calls.ofCount, cursorConditionValues, List.length_append,
        List.length_cons, if_true, Calls.mk.injEq, and_true]
      omega

theorem makes_cursorExpr {sortBy : Option SortingParams} {cursor : CursorParams}
    (hne : cursor.isEmpty = false) :
    Makes cfg (if cursorAccepted sortBy cursor then
        .ofCount (cursorValues cfg sortBy cursor).length else .rejected)
      (cursorExpr cfg sortBy cursor) := by
  unfold cursorExpr
  cases herror : cursor.hasError with
  | true =>
      simp only [cursorAccepted, herror, Bool.not_true, Bool.false_and, Bool.false_eq_true,
        if_false, if_true]
      exact makes_throw (invalidArgument_ne_overflow _)
  | false =>
      simp only [Bool.false_eq_true, if_false]
      cases sortBy with
      | none =>
          simp only [cursorAccepted, Option.any_none, Bool.and_false, Bool.false_eq_true, if_false]
          exact makes_throw (invalidArgument_ne_overflow _)
      | some sortBy =>
          by_cases hlength : sortBy.sorts.length = cursor.len
          · cases hdirection : cursor.direction with
            | none =>
                simp only [cursorAccepted, hdirection, Option.isSome_none, Bool.and_false,
                  Bool.false_and, Bool.false_eq_true, if_false, hlength, ne_eq, not_true]
                exact makes_throw (invalidArgument_ne_overflow _)
            | some direction =>
                have haccepted : cursorAccepted (some sortBy) cursor = true := by
                  simp [cursorAccepted, herror, hdirection, hlength]
                have hvalues : cursor.values ≠ [] := by
                  rw [CursorParams.isEmpty, List.isEmpty_eq_false_iff] at hne
                  exact hne
                simp only [haccepted, if_true, hlength, ne_eq, not_true, if_false, cursorValues]
                have hmakes : Makes cfg _ _ :=
                  makes_cursorConditionRecursive direction hlength hvalues
                split
                · rename_i hsorts hvalues
                  rw [hsorts, hvalues] at hmakes ⊢
                  exact hmakes
                · exact hmakes
          · have haccepted : cursorAccepted (some sortBy) cursor = false := by
              simp [cursorAccepted, hlength]
            simp only [haccepted, Bool.false_eq_true, if_false, ne_eq, hlength, not_false_eq_true,
              if_true]
            exact makes_throw (invalidArgument_ne_overflow _)

theorem makes_cursorCondition (sortBy : Option SortingParams) (pagination : Option Pagination) :
    Makes cfg (paginationCalls cfg sortBy pagination) (cursorCondition cfg sortBy pagination) := by
  rcases pagination with _ | _ | _ | cursor
  · exact makes_pure none
  · exact makes_pure none
  · exact makes_pure none
  cases hcursor : cursor.isEmpty with
  | true =>
      simp only [paginationCalls, cursorCondition, hcursor, if_true]
      exact makes_pure none
  | false =>
      simp only [paginationCalls, cursorCondition, hcursor, Bool.false_eq_true, if_false]
      exact (makes_cursorExpr hcursor).map some

theorem makes_dynamicParts (params : Params) :
    Makes cfg (selectCalls cfg params) (dynamicParts cfg params) :=
  (makes_filterExprs params.filters).seq fun filters =>
    (makes_searchCondition params.search).seq fun search =>
      (makes_cursorCondition params.sortBy params.pagination).map (DynamicParts.mk filters search)

/-- Every run of the query body takes the placeholders of `setExprCalls`. -/
theorem makes_processSetExpr (params : Params) (e : SetExpr) :
    Makes cfg (setExprCalls cfg params e) (processSetExpr cfg params e) := by
  fun_induction processSetExpr cfg params e with
  | case1 select => exact ((makes_dynamicParts params).map _).map SetExpr.select
  | case2 op quantifier left right ihl ihr =>
      exact ihl.seq fun left' => ihr.map (SetExpr.setOperation op quantifier left')
  | case3 ctes body order limit fetch rest ih => exact ih.map _
  | case4 rows => exact makes_pure _
  | case5 name => exact makes_pure _
  | case6 form args => exact makes_pure _

/-- The generated placeholders of a printed statement show what the generator
hands out, one text for each value that is pushed. -/
theorem map_text_issued {n last : UInt8} {texts : List String} {vs : List FilterValue}
    (h : generate cfg vs.length n = .ok (texts, last)) :
    (issued cfg n vs).map Mark.text = texts := by
  have hfits : Fits cfg n vs.length := by
    by_contra hnot
    rw [generate_of_not_fits hnot] at h
    cases h
  rw [generate_of_fits hfits] at h
  obtain ⟨rfl, -⟩ := Prod.mk.inj (Except.ok.inj h)
  apply List.ext_getElem?
  intro j
  rw [List.getElem?_map, List.getElem?_map, getElem?_issued]
  by_cases hj : j < vs.length
  · simp [hj]
  · simp [Nat.not_lt.mp hj]

/-- What `process_query` prints: the placeholders of the base statement that it
keeps, and those that the generator hands out for the calls of the run. -/
theorem processQuery_texts (D : Display) {q q' : Query} {params : Params}
    {binds binds' : List FilterValue} {maxExisting : ℕ}
    (h : processQuery cfg q params binds maxExisting = .ok (q', binds')) :
    ∃ first texts last ms,
      addU8 cfg (startIndex binds.length maxExisting) 1 = .ok first ∧
      generate cfg (setExprCalls cfg params q.body).count first = .ok (texts, last) ∧
      ms.map Mark.text = texts ∧ Printed D cfg params q ms (marks (D.query q')) := by
  obtain ⟨hrun, hprinted⟩ := processQuery_spec D h
  have hvalues := hrun binds rfl
  rw [h] at hvalues
  obtain ⟨first, hfirst, h⟩ := exists_of_bind_eq_ok h
  obtain ⟨⟨body, state⟩, hbody, h⟩ := exists_of_bind_eq_ok h
  obtain ⟨limitClause, -, h⟩ := exists_of_bind_eq_ok h
  obtain ⟨-, rfl⟩ := Prod.mk.inj (Except.ok.inj h)
  have hmakes := @makes_processSetExpr cfg params q.body
  have hfits : Fits cfg first (setExprCalls cfg params q.body).count := by
    by_contra hnot
    rw [hmakes.overflows ⟨binds, first⟩ hnot] at hbody
    cases hbody
  have hcompleted : (setExprCalls cfg params q.body).completed = true := by
    by_contra hnot
    obtain ⟨err, -, herr⟩ := hmakes.rejects ⟨binds, first⟩ (by simpa using hnot) hfits
    rw [herr] at hbody
    cases hbody
  obtain ⟨body', vs, hlength, hcompletes⟩ := hmakes.completes ⟨binds, first⟩ hcompleted hfits
  rw [hcompletes] at hbody
  obtain ⟨-, rfl⟩ := Prod.mk.inj (Except.ok.inj hbody)
  -- the values the run pushes are those of the generated placeholders
  have hpushed : setExprValues cfg params q.body = vs := by simpa using hvalues.symm
  rw [hpushed, ← addU8_eq_ok hfirst] at hprinted
  rw [← hlength] at hfits ⊢
  have hgenerate := generate_of_fits hfits
  exact ⟨first, _, _, _, hfirst, hgenerate, map_text_issued hgenerate, hprinted⟩

/-! ### New numbers -/

/-- The numbers of generated placeholders; those of MySQL have none. -/
def Numbered (cfg : Config) (texts : List String) (numbers : List ℕ) : Prop :=
  match cfg.backend with
  | .mysql => numbers = [] ∧ ∀ text ∈ texts, text = "?"
  | _ => texts = numbers.map fun k => "$" ++ toString k

/-- How many numbers are handed out with this many placeholders. -/
def numberCount (cfg : Config) (calls : ℕ) : ℕ :=
  match cfg.backend with
  | .mysql => 0
  | _ => calls

/-- The generator makes this many placeholders, its counter is never cut, and
their numbers are distinct, above those of the base text, and follow the
largest of them or the number of binds. -/
def FreshNumbers (cfg : Config) (existing : List ℕ) (bindCount calls : ℕ) : Prop :=
  ∃ first texts last numbers,
    addU8 cfg (startIndex bindCount (maxPlaceholder existing)) 1 = .ok first ∧
    generate cfg calls first = .ok (texts, last) ∧ Numbered cfg texts numbers ∧
    (first.toNat = lastNumber bindCount existing + 1 ∧
      last.toNat = first.toNat + numbers.length) ∧
    numbers.Nodup ∧ (∀ k ∈ numbers, ∀ j ∈ existing, j < k) ∧
    numbers = List.range' ((if existing = [] then bindCount else maxPlaceholder existing) + 1)
      numbers.length

/-- The eight-bit counter has room behind the numbers there are. A base text
whose only number is `$0` is taken for one without numbers. -/
def CounterHasRoom (cfg : Config) (existing : List ℕ) (bindCount calls : ℕ) : Prop :=
  lastNumber bindCount existing + numberCount cfg calls ≤ 254 ∧
    (existing ≠ [] → maxPlaceholder existing = 0 → numberCount cfg calls = 0 ∨ bindCount = 0)

theorem toString_nat_inj {j k : ℕ} (h : toString j = toString k) : j = k := by
  have hvalue := congrArg (fun text => Nat.ofDigitChars 10 text.toList 0) h
  simpa [Nat.toString_eq_repr, Nat.toList_repr, Nat.ofDigitChars_ten_toDigits] using hvalue

theorem placeholderText_inj {j k : ℕ} (h : "$" ++ toString j = "$" ++ toString k) : j = k := by
  have hchars := congrArg String.toList h
  rw [String.toList_append, String.toList_append] at hchars
  exact toString_nat_inj (String.toList_inj.mp (List.append_cancel_left hchars))

theorem toNat_startIndex {existing : List ℕ} {bindCount : ℕ}
    (h : lastNumber bindCount existing < 256) :
    (startIndex bindCount (maxPlaceholder existing)).toNat = lastNumber bindCount existing := by
  rw [lastNumber] at h ⊢
  rw [startIndex]
  by_cases hpos : maxPlaceholder existing > 0
  · rw [if_pos hpos] at h
    rw [if_pos hpos, if_pos hpos, UInt8.toNat_ofNat', Nat.mod_eq_of_lt h]
  · rw [if_neg hpos] at h
    rw [if_neg hpos, if_neg hpos, UInt8.toNat_ofNat', Nat.mod_eq_of_lt h]

theorem toNat_advance (hbackend : cfg.backend ≠ .mysql) {n : UInt8} {j : ℕ}
    (h : n.toNat + j < 256) : (advance cfg n j).toNat = n.toNat + j := by
  have hadvance : advance cfg n j = n + UInt8.ofNat j := by
    rw [advance]
    split
    · contradiction
    · rfl
  rw [hadvance, UInt8.toNat_add, UInt8.toNat_ofNat']
  omega

theorem map_placeholderText (hbackend : cfg.backend ≠ .mysql) {n : UInt8} {calls : ℕ}
    (h : n.toNat + calls ≤ 256) :
    ((List.range calls).map fun j => placeholderText cfg (advance cfg n j)) =
      (List.range' n.toNat calls).map fun k => "$" ++ toString k := by
  rw [List.range'_eq_map_range, List.map_map]
  refine List.map_congr_left fun j hj => ?_
  have hj : j < calls := List.mem_range.mp hj
  have htext : ∀ m, placeholderText cfg m = "$" ++ toString m.toNat := by
    intro m
    rw [placeholderText]
    split
    · contradiction
    · rfl
  rw [htext, toNat_advance hbackend (by omega)]
  rfl

section Fresh

variable {existing : List ℕ} {bindCount calls : ℕ}

/-- All numbers of the base text are below those behind `lastNumber`. -/
theorem existing_lt {k : ℕ} (hk : lastNumber bindCount existing < k) {j : ℕ}
    (hj : j ∈ existing) : j < k := by
  have hle := le_maxPlaceholder hj
  rw [lastNumber] at hk
  split at hk <;> omega

theorem CounterHasRoom.start (h : CounterHasRoom cfg existing bindCount calls) :
    addU8 cfg (startIndex bindCount (maxPlaceholder existing)) 1 =
      .ok (startIndex bindCount (maxPlaceholder existing) + 1) ∧
    (startIndex bindCount (maxPlaceholder existing) + 1).toNat =
      lastNumber bindCount existing + 1 := by
  have hroom := h.1
  have hlast : lastNumber bindCount existing < 256 := by omega
  have hstart := toNat_startIndex hlast
  have hsum : ¬(cfg.overflowChecks = true ∧
      (startIndex bindCount (maxPlaceholder existing)).toNat + (1 : UInt8).toNat ≥ 2 ^ 8) := by
    rw [UInt8.toNat_one, hstart]
    rintro ⟨-, hover⟩
    omega
  refine ⟨by rw [addU8, if_neg hsum], ?_⟩
  rw [UInt8.toNat_add, UInt8.toNat_one, hstart]
  omega

theorem CounterHasRoom.freshNumbers (h : CounterHasRoom cfg existing bindCount calls) :
    FreshNumbers cfg existing bindCount calls := by
  obtain ⟨hadd, hfirst⟩ := h.start
  obtain ⟨hroom, hzero⟩ := h
  set first := startIndex bindCount (maxPlaceholder existing) + 1
  by_cases hbackend : cfg.backend = .mysql
  · have hfits : Fits cfg first calls := Or.inl hbackend
    have hgenerate := generate_of_fits hfits
    refine ⟨first, _, _, [], hadd, hgenerate, ?_, ⟨hfirst, ?_⟩, List.nodup_nil, by simp, rfl⟩
    · simp only [Numbered, hbackend, placeholderText, true_and]
      intro text htext
      obtain ⟨j, -, rfl⟩ := List.mem_map.mp htext
      rfl
    · simp only [advance, hbackend, List.length_nil, Nat.add_zero]
  · have hcount : numberCount cfg calls = calls := by
      rw [numberCount]
      split
      · contradiction
      · rfl
    rw [hcount] at hroom hzero
    have hfits : Fits cfg first calls := Or.inr (Or.inr (by omega))
    have hgenerate := generate_of_fits hfits
    rw [map_placeholderText hbackend (by omega)] at hgenerate
    refine ⟨first, _, _, List.range' first.toNat calls, hadd, hgenerate, ?_, ⟨hfirst, ?_⟩,
      List.nodup_range', fun k hk j hj => ?_, ?_⟩
    · rw [Numbered]
      split
      · contradiction
      · rfl
    · rw [toNat_advance hbackend (by omega), List.length_range']
    · have hlow := (List.mem_range'_1.mp hk).1
      have hlast : lastNumber bindCount existing < k := by omega
      exact existing_lt hlast hj
    · rw [List.length_range', hfirst]
      by_cases hnil : existing = []
      · simp [hnil, lastNumber, maxPlaceholder]
      · rw [if_neg hnil]
        by_cases hpos : maxPlaceholder existing > 0
        · rw [lastNumber, if_pos hpos]
        · rw [lastNumber, if_neg hpos]
          rcases hzero hnil (by omega) with rfl | rfl
          · rfl
          · rw [Nat.eq_zero_of_not_pos hpos]

theorem FreshNumbers.counterHasRoom (h : FreshNumbers cfg existing bindCount calls) :
    CounterHasRoom cfg existing bindCount calls := by
  obtain ⟨first, texts, last, numbers, -, hgenerate, hnumbered, ⟨hfirst, hlast⟩, -, -, hfollow⟩ := h
  have hfits : Fits cfg first calls := by
    by_contra hnot
    simp [generate_of_not_fits hnot] at hgenerate
  rw [generate_of_fits hfits] at hgenerate
  obtain ⟨rfl, rfl⟩ := Prod.mk.inj (Except.ok.inj hgenerate)
  have hbound := (advance cfg first calls).toNat_lt
  by_cases hbackend : cfg.backend = .mysql
  · have hcount : numberCount cfg calls = 0 := by simp [numberCount, hbackend]
    have := first.toNat_lt
    exact ⟨by omega, fun _ _ => Or.inl hcount⟩
  · have hcount : numberCount cfg calls = calls := by
      rw [numberCount]
      split
      · contradiction
      · rfl
    rw [Numbered] at hnumbered
    split at hnumbered
    · contradiction
    have hlength : numbers.length = calls := by
      simpa using (congrArg List.length hnumbered).symm
    refine ⟨by omega, fun hnil hzero => ?_⟩
    rw [hcount]
    rcases calls with _ | calls
    · exact Or.inl rfl
    · right
      -- The first number is read off its text and off the expected numbers.
      have hfits : first.toNat + (calls + 1) ≤ 256 := by omega
      rw [map_placeholderText hbackend hfits, hfollow, if_neg hnil, hzero, hlength,
        List.range'_succ, List.range'_succ, List.map_cons, List.map_cons] at hnumbered
      have hhead := placeholderText_inj (List.cons.inj hnumbered).1
      have hlastNumber : lastNumber bindCount existing = bindCount := by
        simp [lastNumber, hzero]
      omega

theorem freshNumbers_iff :
    FreshNumbers cfg existing bindCount calls ↔ CounterHasRoom cfg existing bindCount calls :=
  ⟨FreshNumbers.counterHasRoom, CounterHasRoom.freshNumbers⟩

end Fresh

/-- The placeholders of a run get new numbers exactly when the counter has
room for all of them. -/
theorem fresh_placeholders_iff (cfg : Config) (q : Query) (params : Params)
    (bindValues : List FilterValue) (existing : List ℕ) :
    let calls := setExprCalls cfg params q.body
    Makes cfg calls (processSetExpr cfg params q.body) ∧
      (FreshNumbers cfg existing bindValues.length calls.count ↔
        CounterHasRoom cfg existing bindValues.length calls.count) :=
  ⟨makes_processSetExpr params q.body, freshNumbers_iff⟩

/-! ### A long list and a large number -/

namespace Example

open Reference

/-- `id IN (…)`. -/
def idIn (ids : List FilterValue) : Params :=
  { Params.default with filters := some ⟨[⟨"id", .in, .array ids, false⟩]⟩ }

def people : Query := simpleQuery (.select (simpleSelect [.wildcard] "people" none))

def wrapping (backend : Backend) : Config := ⟨backend, false, id⟩

end Example

open Example

theorem count_idIn (cfg : Config) {ids : List FilterValue} (hne : ids ≠ []) :
    (setExprCalls cfg (idIn ids) people.body).count = ids.length := by
  have haccepted : Filter.accepted ⟨"id", .in, .array ids, false⟩ = true := by
    simpa [Filter.accepted] using hne
  change (Calls.andThen (.sum [filterCalls cfg ⟨"id", .in, .array ids, false⟩]) _).count = _
  rw [filterCalls, if_pos haccepted]
  rfl

/-- 300 values in one IN list, built with and without overflow checks; and one
filter behind `$300`. -/
theorem placeholders_not_fresh :
    ¬FreshNumbers (wrapping .postgres) [] 0
        (setExprCalls (wrapping .postgres) (idIn (.replicate 300 (.int 7))) people.body).count ∧
      ¬FreshNumbers (build .postgres) [] 0
        (setExprCalls (build .postgres) (idIn (.replicate 300 (.int 7))) people.body).count ∧
      ¬FreshNumbers (wrapping .postgres) [300] 1
        (setExprCalls (wrapping .postgres) inBonn people.body).count := by
  have hne : List.replicate 300 (FilterValue.int 7) ≠ [] := List.cons_ne_nil _ _
  simp only [freshNumbers_iff, count_idIn _ hne, List.length_replicate]
  refine ⟨fun h => ?_, fun h => ?_, fun h => ?_⟩
  · exact absurd h.1 (by decide)
  · exact absurd h.1 (by decide)
  · exact absurd h.1 (by decide)

end SqlxData.Dynamic
