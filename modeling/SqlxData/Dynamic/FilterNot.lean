import Mathlib.Data.List.ModifyLast
import SqlxData.Dynamic.Success

/-!
Negated filters. `not` marks the last filter of a list. The condition of the
marked filter is the complement of the plain one, unless ILIKE is spelled with
LOWER and LIKE: there the mark is not looked at.
-/

namespace SqlxData

/-- `FilterBuilder::not`: the last filter is marked. -/
def FilterParams.not (p : FilterParams) : FilterParams :=
  ⟨p.filters.modifyLast fun f => { f with not := true }⟩

/-- The operators that look at the mark, as their documentation says. -/
def FilterOperator.negatable : FilterOperator → Bool
  | .like | .unsafeLike | .iLike | .in | .between | .contains => true
  | _ => false

theorem FilterParams.not_concat (others : List Filter) (f : Filter) :
    FilterParams.not ⟨others ++ [f]⟩ = ⟨others ++ [{ f with not := true }]⟩ := by
  rw [FilterParams.not, List.modifyLast_concat]

namespace Dynamic

open SqlxData.Sqlparser ThreeValued Comparisons

variable {V : Type} {C : Comparisons V} {cfg : Config} {f : Filter}

/-! ### The truth of a marked filter -/

/-- The backend has an ILIKE of its own or the operator is another one. -/
def LooksAtNot (cfg : Config) (operator : FilterOperator) : Prop :=
  operator ≠ .iLike ∨ cfg.backend = .postgres

theorem truth_not (hop : f.operator.negatable = true) (hlooks : LooksAtNot cfg f.operator)
    (column : String → Option V) :
    Filter.truth C cfg column { f with not := true } =
      (Filter.truth C cfg column { f with not := false }).not := by
  obtain ⟨field, operator, value, negated⟩ := f
  cases operator with
  | like | unsafeLike => rfl
  | iLike =>
      obtain hpostgres : cfg.backend = .postgres := hlooks.resolve_left (not_not.mpr rfl)
      simp only [Filter.truth, hpostgres, negateIf, Bool.false_eq_true, if_false, if_true]
  | «in» => cases value <;> rfl
  | between =>
      cases value with
      | array arr => rcases arr with _ | ⟨low, _ | ⟨high, _ | ⟨third, rest⟩⟩⟩ <;> rfl
      | _ => rfl
  | contains => cases value <;> rfl
  | _ => cases hop

/-- Where LOWER and LIKE stand for ILIKE, the mark changes nothing. -/
theorem truth_not_ilike (hop : f.operator = .iLike) (hbackend : cfg.backend ≠ .postgres)
    (column : String → Option V) :
    Filter.truth C cfg column { f with not := true } =
      Filter.truth C cfg column { f with not := false } := by
  simp only [Filter.truth, hop]

/-- On values that are there an ILIKE is decided. -/
theorem truth_ilike_ne_unknown (hop : f.operator = .iLike) {column : String → Option V}
    (hcolumn : (column f.field).isSome) (hbound : ∀ v ∈ filterValues cfg f, (C.bound v).isSome) :
    Filter.truth C cfg column { f with not := false } ≠ .unknown := by
  have hdecided : ∀ (test : V → V → Bool) (a b : Option V), a.isSome → b.isSome →
      Truth.lift₂ test a b ≠ .unknown := by
    intro test a b ha hb
    obtain ⟨x, rfl⟩ := Option.isSome_iff_exists.mp ha
    obtain ⟨y, rfl⟩ := Option.isSome_iff_exists.mp hb
    rw [Truth.lift₂_some, Truth.ofBool]
    split <;> decide
  have hlowered : (Option.map C.lower (column f.field)).isSome := by
    rw [Option.isSome_map]
    exact hcolumn
  simp only [filterValues, hop] at hbound
  simp only [Filter.truth, hop]
  cases hbackend : cfg.backend with
  | postgres =>
      rw [hbackend] at hbound
      exact hdecided _ _ _ hcolumn (hbound f.value (by simp))
  | sqlite | mysql =>
      rw [hbackend] at hbound
      cases hvalue : f.value <;> rw [hvalue] at hbound <;>
        exact hdecided _ _ _ hlowered (hbound _ (by simp))

/-! ### The emitted conditions -/

theorem accepted_not (f : Filter) (negated : Bool) :
    Filter.accepted { f with not := negated } = f.accepted := rfl

theorem filterValues_not (cfg : Config) (f : Filter) (negated : Bool) :
    filterValues cfg { f with not := negated } = filterValues cfg f := rfl

/-- The same values are bound for a filter with and without its mark. -/
theorem exists_run_not {s s' : BindState} {e : Expr}
    (h : (filterExpr cfg { f with not := false }).run s = .ok (e, s')) :
    ∃ e', (filterExpr cfg { f with not := true }).run s = .ok (e', s') := by
  have hplain := (runs_filterExpr { f with not := false } s).mp ⟨_, h⟩
  rw [accepted_not, filterValues_not] at hplain
  obtain ⟨⟨e', s''⟩, hrun⟩ := (runs_filterExpr { f with not := true } s).mpr hplain
  have hstate := (emits_filterExpr Display.reference { f with not := false }).run_eq h
  have hstate' := (emits_filterExpr Display.reference { f with not := true }).run_eq hrun
  rw [filterValues_not] at hstate hstate'
  exact ⟨e', by rw [hrun, hstate', hstate]⟩

theorem run_mapM_concat {α β : Type} (g : α → BuildM β) (xs : List α) (x : α) (s : BindState) :
    ((xs ++ [x]).mapM g).run s = (xs.mapM g).run s >>= fun r =>
      (g x).run r.2 >>= fun r' => .ok (r.1 ++ [r'.1], r'.2) := by
  rw [List.mapM_append, StateT.run_bind]
  refine bind_congr fun r => ?_
  rw [StateT.run_bind, List.mapM_cons, StateT.run_bind]
  cases (g x).run r.2 <;> rfl

/-- Behind the same conditions of the other filters, `not` puts the complement
of the condition of the last one. -/
def Complemented (C : Comparisons V) (cfg : Config) (others : List Filter) (f : Filter)
    (s : BindState) (value : Expr → Option V) (other : Expr → Truth)
    (result : List Expr × BindState) : Prop :=
  ∃ rest e e', result.1 = rest ++ [e] ∧
    (filterExprs cfg (some (FilterParams.not ⟨others ++ [f]⟩))).run s =
      .ok (rest ++ [e'], result.2) ∧
    (C.operandTruth value other e' = .holds ↔ C.operandTruth value other e = .fails)

/-- A filter marked by `not` is complemented exactly when it is no ILIKE, or
one of PostgreSQL. -/
theorem not_complemented_iff (hop : f.operator.negatable = true) {others : List Filter}
    {s : BindState} {result : List Expr × BindState}
    (hrun : (filterExprs cfg (some ⟨others ++ [{ f with not := false }]⟩)).run s = .ok result)
    {value : Expr → Option V} (hreads : C.Reads value) (other : Expr → Truth)
    (hcolumn : (value (idExpr f.field)).isSome)
    (hbound : ∀ v ∈ filterValues cfg f, (C.bound v).isSome) :
    Complemented C cfg others f s value other result ↔
      f.operator ≠ .iLike ∨ cfg.backend = .postgres := by
  rw [filterExprs, run_mapM_concat] at hrun
  obtain ⟨⟨rest, s₁⟩, hrest, hrun⟩ := Core.exists_of_bind_eq_ok hrun
  obtain ⟨⟨e, s₂⟩, hlast, hdone⟩ := Core.exists_of_bind_eq_ok hrun
  obtain rfl := Except.ok.inj hdone
  obtain ⟨e', hlast'⟩ := exists_run_not hlast
  have htruth : C.operandTruth value other e = Filter.truth C cfg
      (fun name => value (idExpr name)) { f with not := false } :=
    yields_filterExpr_means _ _ _ _ hlast value other hreads
  have htruth' : C.operandTruth value other e' = Filter.truth C cfg
      (fun name => value (idExpr name)) { f with not := true } :=
    yields_filterExpr_means _ _ _ _ hlast' value other hreads
  have hnot : (filterExprs cfg (some (FilterParams.not ⟨others ++ [f]⟩))).run s =
      .ok (rest ++ [e'], s₂) := by
    rw [FilterParams.not_concat, filterExprs, run_mapM_concat, hrest]
    simp only [Bind.bind, Except.bind, hlast']
  constructor
  · rintro ⟨rest₁, e₁, e₁', hsame, hnot₁, hcomplement⟩
    by_contra hlooks
    rw [not_or, not_not] at hlooks
    obtain ⟨hilike, hbackend⟩ := hlooks
    obtain rfl : e = e₁ := by simpa using (List.append_inj' hsame rfl).2
    obtain rfl : e' = e₁' := by
      have hlists := (Prod.mk.inj (Except.ok.inj (hnot.symm.trans hnot₁))).1
      simpa using (List.append_inj' hlists rfl).2
    -- both conditions are the same, and decided
    have hdecided : Filter.truth C cfg (fun name => value (idExpr name)) { f with not := false } ≠
        .unknown := truth_ilike_ne_unknown hilike hcolumn hbound
    rw [htruth, htruth', truth_not_ilike hilike hbackend] at hcomplement
    cases hplain : Filter.truth C cfg (fun name => value (idExpr name)) { f with not := false } with
    | holds => simp [hplain] at hcomplement
    | fails => simp [hplain] at hcomplement
    | unknown => exact hdecided hplain
  · intro hlooks
    refine ⟨rest, e, e', rfl, hnot, ?_⟩
    rw [htruth, htruth', truth_not hop hlooks, Truth.not_eq_holds]

/-! ### A name -/

namespace NotExample

open Example

/-- Texts; the patterns of the examples have no wildcards. -/
def plainTexts : Comparisons String where
  bound v :=
    match v with
    | .string s => some s
    | _ => none
  lower s := s
  compare op a b :=
    match op with
    | .eq => a = b
    | .notEq => a ≠ b
    | _ => false
  like _ a b := a = b
  ilike _ a b := a = b

def named (operator : FilterOperator) : Filter := ⟨"name", operator, .string "bob", false⟩

def eve : Expr → Option String := plainTexts.scalar fun _ => some "eve"

def conditions (filters : FilterParams) : Except SqlxError (List Expr × BindState) :=
  (filterExprs (build .sqlite) (some filters)).run ⟨[], 1⟩

end NotExample

open NotExample Example

theorem not_complemented_like : ∃ result, conditions ⟨[named .like]⟩ = .ok result ∧
    Complemented plainTexts (build .sqlite) [] (named .like) ⟨[], 1⟩ eve (fun _ => .unknown)
      result :=
  ⟨_, rfl, (not_complemented_iff rfl rfl (plainTexts.reads_scalar _) _ rfl (by decide)).mpr
    (.inl (by decide))⟩

/-- Eve is excluded by `ilike("name", "bob")` and by its negation. -/
theorem not_lost_ilike : ∃ result, conditions ⟨[named .iLike]⟩ = .ok result ∧
    conditions (FilterParams.not ⟨[named .iLike]⟩) = .ok result ∧
    (result.1.map (plainTexts.operandTruth eve fun _ => .unknown)) = [.fails] ∧
    ¬Complemented plainTexts (build .sqlite) [] (named .iLike) ⟨[], 1⟩ eve (fun _ => .unknown)
      result := by
  refine ⟨_, rfl, rfl, by decide, ?_⟩
  rintro ⟨rest, e, e', hsame, hnot, hcomplement⟩
  obtain ⟨hlists, -⟩ := Prod.mk.inj (Except.ok.inj hnot)
  obtain rfl : e = e' := by
    have := hsame.symm.trans hlists
    simpa using (List.append_inj' this rfl).2
  obtain ⟨rfl, he⟩ := List.append_inj' (show [] ++ [_] = rest ++ [e] from hsame) rfl
  obtain rfl := List.singleton_inj.mp he
  exact absurd hcomplement (by decide)

end Dynamic

end SqlxData
