import SqlxData.Dynamic.ConditionWords
import SqlxData.Dynamic.FilterNot
import SqlxData.Dynamic.Noninterference

/-!
What the operators of a filter list say, and what the generated conjunction
says of a row. The two agree operator by operator, but for NOT IN: its condition
is that of IN.
-/

namespace SqlxData

open SqlxData.Sqlparser SqlxData.Dynamic ThreeValued Comparisons

/-! ### What the operators say -/

/-- The operators that compare, look a value up or ask for NULL. -/
def FilterOperator.plain : FilterOperator → Bool
  | .like | .iLike | .contains => false
  | _ => true

def Comparisons.allOf (ts : List Truth) : Truth := ts.foldr Truth.and .holds

/-- The reference meaning of a filter with a plain operator: IN is equality
with some element, NOT IN is difference from every element, BETWEEN has both
its bounds in. -/
def Filter.reference {V : Type} (C : Comparisons V) (column : String → Option V) (f : Filter) :
    Truth :=
  let col := column f.field
  match f.operator, f.value with
  | .eq, value => C.test .eq col (C.bound value)
  | .ne, value => C.test .notEq col (C.bound value)
  | .gt, value => C.test .gt col (C.bound value)
  | .gte, value => C.test .gtEq col (C.bound value)
  | .lt, value => C.test .lt col (C.bound value)
  | .lte, value => C.test .ltEq col (C.bound value)
  | .unsafeLike, value => Truth.lift₂ (C.like none) col (C.bound value)
  | .in, .array values => anyOf (values.map fun v => C.test .eq col (C.bound v))
  | .notIn, .array values => allOf (values.map fun v => (C.test .eq col (C.bound v)).not)
  | .between, .array [low, high] =>
      (C.test .gtEq col (C.bound low)).and (C.test .ltEq col (C.bound high))
  | .isNull, _ => .ofBool col.isNone
  | .isNotNull, _ => .ofBool col.isSome
  | _, _ => .unknown

section Truths

variable {V : Type} {C : Comparisons V} {cfg : Config} {f : Filter} {column : String → Option V}

/-- Difference from every element is the complement of equality with some. -/
theorem allOf_not (ts : List Truth) : allOf (ts.map Truth.not) = (anyOf ts).not := by
  induction ts with
  | nil => rfl
  | cons t ts ih =>
      change t.not.and (allOf (ts.map Truth.not)) = (t.or (anyOf ts)).not
      rw [ih]
      cases t <;> cases anyOf ts <;> rfl

theorem truth_eq_reference (hop : f.operator.plain = true) (hnot : f.not = false)
    (hin : f.operator ≠ .notIn) : f.truth C cfg column = f.reference C column := by
  obtain ⟨field, operator, value, negated⟩ := f
  obtain rfl : negated = false := hnot
  cases operator with
  | like | iLike | contains => cases hop
  | «in» => cases value <;> rfl
  | notIn => exact absurd rfl hin
  | between =>
      cases value with
      | array arr => rcases arr with _ | ⟨low, _ | ⟨high, _ | ⟨third, rest⟩⟩⟩ <;> rfl
      | _ => rfl
  | _ => rfl

/-- The condition of NOT IN is true of a row when its meaning is false. -/
theorem truth_notIn (hop : f.operator = .notIn) (hnot : f.not = false) :
    f.truth C cfg column = .holds ↔ f.reference C column = .fails := by
  obtain ⟨field, operator, value, negated⟩ := f
  obtain rfl : negated = false := hnot
  obtain rfl : operator = .notIn := hop
  cases value with
  | array values =>
      have hreference : Filter.reference C column ⟨field, .notIn, .array values, false⟩ =
          (anyOf (values.map fun v => C.test .eq (column field) (C.bound v))).not := by
        rw [← allOf_not, List.map_map]
        rfl
      rw [hreference]
      change anyOf _ = .holds ↔ _
      cases anyOf (values.map fun v => C.test .eq (column field) (C.bound v)) <;> simp [Truth.not]
  | _ => exact iff_of_false (fun h => Truth.noConfusion h) fun h => Truth.noConfusion h

/-- No NOT IN decides on the row: there is none, or another filter excludes the
row, or they neither all say yes nor all say no. -/
def NotInIdle (C : Comparisons V) (column : String → Option V) (filters : List Filter) : Prop :=
  (∀ f ∈ filters, f.operator ≠ .notIn) ∨
    (∃ f ∈ filters, f.operator ≠ .notIn ∧ f.reference C column ≠ .holds) ∨
    ((∃ f ∈ filters, f.operator = .notIn ∧ f.reference C column ≠ .holds) ∧
      ∃ f ∈ filters, f.operator = .notIn ∧ f.reference C column ≠ .fails)

/-- The truths of a list agree with the meanings exactly when no NOT IN
decides. -/
theorem all_truths_iff {filters : List Filter}
    (hops : ∀ f ∈ filters, f.operator.plain = true ∧ f.not = false) :
    ((∀ f ∈ filters, f.truth C cfg column = .holds) ↔
        ∀ f ∈ filters, f.reference C column = .holds) ↔ NotInIdle C column filters :=
  all_hold_iff_oddIdle (fun f hf (hin : f.operator = .notIn) => truth_notIn hin (hops f hf).2)
    fun f hf hin => truth_eq_reference (hops f hf).1 (hops f hf).2 hin

end Truths

/-! ### All operators -/

section Meaning

variable {V : Type} (C : Comparisons V) (cfg : Config)

/-- The meaning of the operator of a filter. The texts of LIKE, ILIKE and
Contains are patterns; without an ILIKE of its own a server compares with LIKE
after LOWER. -/
def Filter.plainMeaning (column : String → Option V) (f : Filter) : Truth :=
  let col := column f.field
  match f.operator, f.value with
  | .like, value => Truth.lift₂ (C.like (escapeChar cfg.backend)) col (C.bound value)
  | .contains, .string s =>
      Truth.lift₂ (C.like (escapeChar cfg.backend)) col (C.bound (.string ("%" ++ s ++ "%")))
  | .iLike, value =>
      match cfg.backend, value with
      | .postgres, value => Truth.lift₂ (C.ilike (some backslash)) col (C.bound value)
      | backend, .string s =>
          Truth.lift₂ (C.like (escapeChar backend)) (col.map C.lower)
            (C.bound (.string (cfg.toLowercase s)))
      | backend, value =>
          Truth.lift₂ (C.like (escapeChar backend)) (col.map C.lower) (C.bound value)
  | _, _ => f.reference C column

/-- The meaning of a filter: `not` asks for the complement, of the operators
that have one. -/
def Filter.meaning (column : String → Option V) (f : Filter) : Truth :=
  negateIf (f.not && f.operator.negatable) (f.plainMeaning C cfg column)

/-- The filters whose condition is that of their complement. -/
def Filter.misread (f : Filter) : Prop :=
  f.operator = .notIn ∧ f.not = false ∨
    f.operator = .iLike ∧ f.not = true ∧ cfg.backend ≠ .postgres

instance (f : Filter) : Decidable (f.misread cfg) :=
  inferInstanceAs (Decidable (_ ∨ _))

variable {C cfg}

/-- Without its flag a filter says what its operator says, but for NOT IN. -/
theorem truth_eq_plainMeaning {f : Filter} (hin : f.operator ≠ .notIn)
    (column : String → Option V) :
    Filter.truth C cfg column { f with not := false } = f.plainMeaning C cfg column := by
  obtain ⟨field, operator, value, negated⟩ := f
  cases operator with
  | like => rfl
  | contains => cases value <;> rfl
  | iLike =>
      cases hbackend : cfg.backend <;> cases value <;>
        simp [Filter.truth, Filter.plainMeaning, hbackend, negateIf]
  | notIn => exact absurd rfl hin
  | «in» => cases value <;> rfl
  | between =>
      cases value with
      | array arr => rcases arr with _ | ⟨low, _ | ⟨high, _ | ⟨third, rest⟩⟩⟩ <;> rfl
      | _ => rfl
  | _ => rfl

/-- The operators without a complement do not look at the flag, but for NOT IN. -/
theorem truth_not_of_not_negatable {f : Filter} (hop : f.operator.negatable = false)
    (hin : f.operator ≠ .notIn) (column : String → Option V) :
    Filter.truth C cfg column { f with not := true } =
      Filter.truth C cfg column { f with not := false } := by
  obtain ⟨field, operator, value, negated⟩ := f
  cases operator with
  | like | unsafeLike | iLike | «in» | between | contains => cases hop
  | notIn => exact absurd rfl hin
  | _ => rfl

/-- NOT IN with its flag is NOT IN. -/
theorem truth_notIn_not {f : Filter} (hop : f.operator = .notIn) (hnot : f.not = true)
    (column : String → Option V) : f.truth C cfg column = f.reference C column := by
  obtain ⟨field, operator, value, negated⟩ := f
  obtain rfl : negated = true := hnot
  obtain rfl : operator = .notIn := hop
  cases value with
  | array values =>
      show (anyOf (values.map fun v => C.test .eq (column field) (C.bound v))).not =
        allOf (values.map fun v => (C.test .eq (column field) (C.bound v)).not)
      rw [← allOf_not, List.map_map]
      rfl
  | _ => rfl

/-- A filter with its flag. -/
theorem flagged {f : Filter} {negated : Bool} (h : f.not = negated) :
    f = { f with not := negated } := by
  rw [← h]

/-- The generated condition means what the filter means, unless it is misread. -/
theorem truth_eq_meaning {f : Filter} (h : ¬f.misread cfg) (column : String → Option V) :
    f.truth C cfg column = f.meaning C cfg column := by
  rw [Filter.misread, not_or, not_and, not_and] at h
  obtain ⟨hnotIn, hiLike⟩ := h
  cases hnot : f.not with
  | false =>
      have hplain : f.truth C cfg column = Filter.truth C cfg column { f with not := false } :=
        congrArg _ (flagged hnot)
      rw [hplain, truth_eq_plainMeaning (fun hin => hnotIn hin hnot), Filter.meaning, hnot]
      rfl
  | true =>
      have hflag : f.truth C cfg column = Filter.truth C cfg column { f with not := true } :=
        congrArg _ (flagged hnot)
      rw [Filter.meaning, hnot, Bool.true_and]
      by_cases hin : f.operator = .notIn
      · rw [truth_notIn_not hin hnot, hin]
        show f.reference C column = f.plainMeaning C cfg column
        simp only [Filter.plainMeaning, hin]
      cases hneg : f.operator.negatable with
      | true =>
          have hlooks : LooksAtNot cfg f.operator := by
            by_cases hop : f.operator = .iLike
            · exact .inr (not_not.mp fun hbackend => hiLike hop ⟨hnot, hbackend⟩)
            · exact .inl hop
          rw [hflag, truth_not hneg hlooks, truth_eq_plainMeaning hin]
          rfl
      | false =>
          rw [hflag, truth_not_of_not_negatable hneg hin, truth_eq_plainMeaning hin]
          rfl

/-- A misread filter is true of a row when its meaning is false. -/
theorem truth_of_misread {f : Filter} (h : f.misread cfg) (column : String → Option V) :
    f.truth C cfg column = .holds ↔ f.meaning C cfg column = .fails := by
  obtain ⟨hop, hnot⟩ | ⟨hop, hnot, hbackend⟩ := h
  · have hmeaning : f.meaning C cfg column = f.reference C column := by
      simp only [Filter.meaning, hnot, Filter.plainMeaning, hop]
      rfl
    rw [truth_notIn hop hnot, hmeaning]
  · have hin : f.operator ≠ .notIn := by
      rw [hop]
      decide
    have hplain : f.truth C cfg column = f.plainMeaning C cfg column :=
      (congrArg _ (flagged hnot)).trans
        ((truth_not_ilike hop hbackend column).trans (truth_eq_plainMeaning hin column))
    have hmeaning : f.meaning C cfg column = (f.plainMeaning C cfg column).not := by
      rw [Filter.meaning, hnot, hop]
      rfl
    rw [hplain, hmeaning]
    cases f.plainMeaning C cfg column <;> simp [Truth.not]

end Meaning

/-- The row satisfies the filters and the search, as they are meant. -/
def Params.selects {V : Type} (C : Comparisons V) (cfg : Config) (params : Params)
    (column : String → Option V) : Bool :=
  (params.filters.elim [] (·.filters)).all (fun f => f.meaning C cfg column = .holds) &&
    params.search.all (·.passes C cfg column)

/-- The misread filters do not decide on the row: the search excludes it, there
is no such filter, another filter excludes the row, or they neither all say yes
nor all say no. -/
def Params.MisreadIdle {V : Type} (C : Comparisons V) (cfg : Config) (params : Params)
    (column : String → Option V) : Prop :=
  params.search.all (·.passes C cfg column) = false ∨
    OddIdle (·.misread cfg) (·.meaning C cfg column) (params.filters.elim [] (·.filters))

/-- What is generated keeps the row as it is meant exactly when no misread
filter decides. -/
theorem Params.keeps_iff_selects_iff {V : Type} {C : Comparisons V} {cfg : Config}
    {params : Params} {column : String → Option V} :
    (params.keeps C cfg column = true ↔ params.selects C cfg column = true) ↔
      params.MisreadIdle C cfg column := by
  have hfilters : ((∀ f ∈ params.filters.elim [] (·.filters), f.truth C cfg column = .holds) ↔
      ∀ f ∈ params.filters.elim [] (·.filters), f.meaning C cfg column = .holds) ↔ _ :=
    all_hold_iff_oddIdle (fun _ _ h => truth_of_misread h column) fun _ _ h =>
      truth_eq_meaning h column
  rw [Params.MisreadIdle, ← hfilters, Params.keeps, Params.selects]
  simp only [Bool.and_eq_true, List.all_eq_true, decide_eq_true_eq]
  cases params.search.all (·.passes C cfg column) <;> simp

/-! ### The conjunction of a SELECT -/

namespace Dynamic

variable {V : Type} {C : Comparisons V} {cfg : Config} {filters : List Filter}

/-- The generated condition, as it is printed and read back. -/
theorem passesClause_combined {parts : DynamicParts} (hshape : parts.WellShaped)
    (value : Expr → Truth) : PassesClause value parts.combined ↔ parts.Holds value := by
  have hsatisfies := satisfies_withDynamicWhere hshape value none
  cases hcombined : parts.combined with
  | none => exact iff_of_true nofun (parts.holds_of_combined_eq_none value hcombined)
  | some combined =>
      rw [hcombined] at hsatisfies
      simpa [PassesClause, withDynamicWhere, passesText_of_canonical (hshape.canonical hcombined)]
        using hsatisfies

/-- The request with these filters and nothing else. -/
def filtersOnly (filters : List Filter) : Params :=
  { Params.default with filters := some ⟨filters⟩ }

theorem withoutCursor_filtersOnly : WithoutCursor (filtersOnly filters) := nofun

theorem keeps_filtersOnly (column : String → Option V) :
    (filtersOnly filters).keeps C cfg column = true ↔
      ∀ f ∈ filters, f.truth C cfg column = .holds := by
  simp [Params.keeps, filtersOnly, Params.default]

/-- The conjunction shows the bound values from left to right and is true of
the row when every filter says so. -/
structure ConjunctionMeans (D : Display) (C : Comparisons V) (cfg : Config) (filters : List Filter)
    (value : Expr → Option V) (other : Expr → Truth) (s : BindState) (parts : DynamicParts)
    (s' : BindState) : Prop where
  bound : s'.bindValues = s.bindValues ++ filterParamsValues cfg (some ⟨filters⟩)
  shown : optionMarks D parts.combined = issued cfg s.n (filterParamsValues cfg (some ⟨filters⟩))
  agrees : PassesClause (C.operandTruth value other) parts.combined ↔
    ∀ f ∈ filters, f.reference C (fun name => value (idExpr name)) = .holds

theorem conjunctionMeans_iff {D : Display} {value : Expr → Option V} {other : Expr → Truth}
    (hops : ∀ f ∈ filters, f.operator.plain = true ∧ f.not = false) (hreads : C.Reads value)
    {s s' : BindState} {parts : DynamicParts}
    (hrun : (dynamicParts cfg (filtersOnly filters)).run s = .ok (parts, s')) :
    ConjunctionMeans D C cfg filters value other s parts s' ↔
      NotInIdle C (fun name => value (idExpr name)) filters := by
  have hemits : Emits cfg _ _ _ := emits_dynamicParts D (filtersOnly filters)
  have hvalues : selectValues cfg (filtersOnly filters) =
      filterParamsValues cfg (some ⟨filters⟩) := List.append_nil _
  rw [hvalues] at hemits
  have hstate := hemits.run_eq hrun
  have hshown : optionMarks D parts.combined =
      issued cfg s.n (filterParamsValues cfg (some ⟨filters⟩)) := by
    rcases hemits s.n with ⟨err, herr⟩ | ⟨parts', hshow, hrun'⟩
    · rw [herr] at hrun
      cases hrun
    · obtain ⟨rfl, -⟩ := Prod.mk.inj (Except.ok.inj ((hrun' s.bindValues).symm.trans hrun))
      exact (hshow.arranged D (by rw [length_issued, hvalues])).inOrder fun ⟨_, h, _⟩ => nomatch h
  have htruths : PassesClause (C.operandTruth value other) parts.combined ↔
      ∀ f ∈ filters, f.truth C cfg (fun name => value (idExpr name)) = .holds := by
    rw [passesClause_combined (yields_dynamicParts s parts s' hrun), ← keeps_filtersOnly]
    exact yields_dynamicParts_say withoutCursor_filtersOnly s parts s' hrun value other hreads
  rw [← all_truths_iff hops, ← htruths]
  exact ⟨fun h => h.agrees, fun h => ⟨by rw [hstate], hshown, h⟩⟩

section Build

variable {D : Display} {parser : Core.Parser} {baseSql : List Char} {q : Query}
  {initialBinds : List FilterValue}

/-- The statement is refused for a filter its operator does not accept alone,
and each SELECT gets a conjunction that means what the filters say. -/
structure FiltersMean (D : Display) (C : Comparisons V) (cfg : Config) (parser : Core.Parser)
    (baseSql : List Char) (initialBinds : List FilterValue) (filters : List Filter)
    (value : Expr → Option V) (other : Expr → Truth) : Prop where
  refused : (∃ err, buildDynamicSql cfg D parser baseSql (filtersOnly filters) initialBinds =
    .error err) ↔ ∃ f ∈ filters, f.accepted = false
  means : ∀ s parts s', (dynamicParts cfg (filtersOnly filters)).run s = .ok (parts, s') →
    ConjunctionMeans D C cfg filters value other s parts s'

/-- Filters mean what their operators say exactly when one of them is refused,
or the counter has room for the values and no NOT IN decides on the row. -/
theorem filters_mean_iff
    (hparse : Core.parseSql parser baseSql = .ok (some (.query q)))
    (hselect : q.body.hasSelect = true)
    (hops : ∀ f ∈ filters, f.operator.plain = true ∧ f.not = false)
    {value : Expr → Option V} (hreads : C.Reads value) (other : Expr → Truth) :
    let base := baseBinds baseSql (.query q) (filtersOnly filters) initialBinds
    FiltersMean D C cfg parser baseSql initialBinds filters value other ↔
      (∃ f ∈ filters, f.accepted = false) ∨
        HasRoom cfg q (filtersOnly filters) base.1.length (maxPlaceholder base.2) ∧
          NotInIdle C (fun name => value (idExpr name)) filters := by
  intro base
  have hrefused : (∃ err, buildDynamicSql cfg D parser baseSql (filtersOnly filters) initialBinds =
      .error err) ↔ _ :=
    buildDynamicSql_error_iff hparse rfl withoutCursor_filtersOnly rfl
  have haccepted : FiltersAccepted (filtersOnly filters).filters ↔
      ¬∃ f ∈ filters, f.accepted = false := by
    simp [FiltersAccepted, filtersOnly]
  have hbuildable : Buildable cfg q (filtersOnly filters) base.1.length (maxPlaceholder base.2) ↔
      HasRoom cfg q (filtersOnly filters) base.1.length (maxPlaceholder base.2) ∧
        ¬∃ f ∈ filters, f.accepted = false := by
    rw [← haccepted]
    exact ⟨fun h => ⟨h.counter, h.filters hselect⟩, fun h => ⟨h.1, fun _ => h.2, by rintro _ ⟨⟩⟩⟩
  by_cases hbad : ∃ f ∈ filters, f.accepted = false
  · -- nothing is built, and no SELECT gets a conjunction
    refine iff_of_true ⟨?_, fun s parts s' hrun => ?_⟩ (.inl hbad)
    · exact iff_of_true (hrefused.mpr fun h => (hbuildable.mp h).2 hbad) hbad
    · have hguard := ((runs_dynamicParts withoutCursor_filtersOnly s).mp ⟨_, hrun⟩).1
      exact absurd hbad (haccepted.mp hguard)
  rw [or_iff_right hbad]
  constructor
  · rintro ⟨hrefused', hmeans⟩
    have hroom : HasRoom cfg q (filtersOnly filters) base.1.length (maxPlaceholder base.2) := by
      by_contra hfull
      exact hbad (hrefused'.mp (hrefused.mpr fun h => hfull (hbuildable.mp h).1))
    refine ⟨hroom, ?_⟩
    obtain ⟨⟨parts, s'⟩, hrun⟩ := (runs_dynamicParts withoutCursor_filtersOnly
      ⟨[], startIndex base.1.length (maxPlaceholder base.2) + 1⟩).mpr
        ⟨haccepted.mpr hbad, hroom.values.mono (length_selectValues_le _ hselect)⟩
    exact (conjunctionMeans_iff hops hreads hrun).mp (hmeans _ _ _ hrun)
  · rintro ⟨hroom, hidle⟩
    refine ⟨iff_of_false (fun h => ?_) hbad, fun s parts s' hrun => ?_⟩
    · exact hrefused.mp h (hbuildable.mpr ⟨hroom, hbad⟩)
    · exact (conjunctionMeans_iff hops hreads hrun).mpr hidle

end Build

/-! ### Two lists of cities -/

namespace MeaningExample

open NotExample

def inCities (operator : FilterOperator) : Filter :=
  ⟨"city", operator, .array [.string "Bonn", .string "Ulm"], false⟩

/-- A row of the city of Bonn. -/
def bonn : Expr → Option String := plainTexts.scalar fun _ => some "Bonn"

end MeaningExample

open MeaningExample NotExample Reference Example

theorem filters_mean_in :
    FiltersMean Display.reference plainTexts (build .postgres) (parserOf wholeTable)
      (text wholeTable) [] [inCities .in] bonn fun _ => .unknown :=
  (filters_mean_iff rfl rfl (by decide) (plainTexts.reads_scalar _) _).mpr
    (.inr ⟨⟨by decide, by decide⟩, .inl (by decide)⟩)

/-- `not_in("city", ["Bonn", "Ulm"])` asks for Bonn and Ulm. -/
theorem filters_mean_in_for_notIn :
    (∃ built, buildDynamicSql (build .postgres) Display.reference (parserOf wholeTable)
        (text wholeTable) (filtersOnly [inCities .notIn]) [] = .ok built ∧
      built.sql = "SELECT * FROM users WHERE city IN ($1, $2)".toList ∧
      built.bindValues = [.string "Bonn", .string "Ulm"]) ∧
    (inCities .notIn).reference plainTexts (fun _ => some "Bonn") = .fails ∧
    ¬FiltersMean Display.reference plainTexts (build .postgres) (parserOf wholeTable)
      (text wholeTable) [] [inCities .notIn] bonn fun _ => .unknown := by
  refine ⟨⟨_, rfl, by decide, by decide⟩, by decide, fun h => ?_⟩
  have hidle := (conjunctionMeans_iff (by decide) (plainTexts.reads_scalar _) rfl).mp
    (h.means ⟨[], 1⟩ _ _ rfl)
  exact absurd hidle (by unfold NotInIdle; decide)

end Dynamic

end SqlxData
