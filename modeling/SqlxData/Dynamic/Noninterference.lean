import SqlxData.Dynamic.Builder
import SqlxData.Sqlparser.Reference

/-!
Two requests that differ only in the values users supply. The builder takes
the same branches for both, so it prints the same text and binds as many
values; where it fails, it fails for both.
-/

namespace SqlxData

/-! ### Requests alike but for the values -/

/-- What the builder may look at in a value: its variant, and the length of an
array. -/
inductive ValueShape
  | string
  | int
  | uint
  | float
  | bool
  | array (length : ℕ)
  | extended (variant : String)
  | blob
  | null
  deriving DecidableEq

def FilterValue.shape : FilterValue → ValueShape
  | .string _ => .string
  | .int _ => .int
  | .uint _ => .uint
  | .float _ => .float
  | .bool _ => .bool
  | .array values => .array values.length
  | .extended variant _ => .extended variant
  | .blob _ => .blob
  | .null => .null

structure Filter.Alike (f g : Filter) : Prop where
  field : f.field = g.field
  operator : f.operator = g.operator
  not : f.not = g.not
  shape : f.value.shape = g.value.shape

structure SearchParams.Alike (s t : SearchParams) : Prop where
  fields : s.fields = t.fields
  caseSensitive : s.caseSensitive = t.caseSensitive
  exactMatch : s.exactMatch = t.exactMatch
  query : s.query.isEmpty = t.query.isEmpty

structure CursorParams.Alike (c d : CursorParams) : Prop where
  direction : c.direction = d.direction
  len : c.len = d.len
  hasError : c.hasError = d.hasError

def Pagination.Alike : Pagination → Pagination → Prop
  | .serial p, .serial q => p = q
  | .slice p, .slice q => p = q
  | .cursor c, .cursor d => c.Alike d
  | _, _ => False

structure Params.Alike (p q : Params) : Prop where
  filters : Option.Rel (fun f g => List.Forall₂ Filter.Alike f.filters g.filters) p.filters q.filters
  search : Option.Rel SearchParams.Alike p.search q.search
  sortBy : p.sortBy = q.sortBy
  limit : p.limit = q.limit
  offset : p.offset = q.offset
  pagination : Option.Rel Pagination.Alike p.pagination q.pagination

namespace Dynamic

open SqlxData.Sqlparser

/-! ### Runs alike -/

/-- Both results are errors, or both are values in a relation. -/
inductive BothEnd {ε α β : Type} (R : α → β → Prop) : Except ε α → Except ε β → Prop
  | error {e e' : ε} : BothEnd R (.error e) (.error e')
  | ok {a : α} {b : β} : R a b → BothEnd R (.ok a) (.ok b)

/-- The counter and the number of values are what a run may look at. -/
structure BindState.Alike (s t : BindState) : Prop where
  n : s.n = t.n
  length : s.bindValues.length = t.bindValues.length

/-- From states alike both runs end alike. -/
def Agree {α β : Type} (R : α → β → Prop) (m : BuildM α) (m' : BuildM β) : Prop :=
  ∀ s s' : BindState, s.Alike s' →
    BothEnd (fun a b => R a.1 b.1 ∧ a.2.Alike b.2) (m.run s) (m'.run s')

variable {α β γ δ : Type} {cfg : Config}

theorem BothEnd.mono {ε : Type} {R S : α → β → Prop} {x : Except ε α} {y : Except ε β}
    (h : BothEnd R x y) (hRS : ∀ u v, R u v → S u v) : BothEnd S x y := by
  cases h with
  | error => exact .error
  | ok h => exact .ok (hRS _ _ h)

theorem BothEnd.bind {ε : Type} {R : α → β → Prop} {S : γ → δ → Prop} {x : Except ε α}
    {y : Except ε β} {f : α → Except ε γ} {g : β → Except ε δ} (h : BothEnd R x y)
    (hfg : ∀ a b, R a b → BothEnd S (f a) (g b)) : BothEnd S (x >>= f) (y >>= g) := by
  cases h with
  | error => exact .error
  | ok h => exact hfg _ _ h

theorem BothEnd.same {ε : Type} (x : Except ε α) : BothEnd Eq x x := by
  cases x with
  | error => exact .error
  | ok a => exact .ok rfl

theorem Agree.mono {R S : α → β → Prop} {m : BuildM α} {m' : BuildM β} (h : Agree R m m')
    (hRS : ∀ u v, R u v → S u v) : Agree S m m' :=
  fun s s' hs => (h s s' hs).mono fun _ _ hab => ⟨hRS _ _ hab.1, hab.2⟩

theorem agree_pure {R : α → β → Prop} {a : α} {b : β} (h : R a b) :
    Agree R (pure a : BuildM α) (pure b) :=
  fun _ _ hs => .ok ⟨h, hs⟩

theorem agree_throw {R : α → β → Prop} (e e' : SqlxError) :
    Agree R (throw e : BuildM α) (throw e') :=
  fun _ _ _ => .error

theorem Agree.seq {R : α → β → Prop} {S : γ → δ → Prop} {m : BuildM α} {m' : BuildM β}
    {f : α → BuildM γ} {g : β → BuildM δ} (h : Agree R m m')
    (hfg : ∀ a b, R a b → Agree S (f a) (g b)) : Agree S (m >>= f) (m' >>= g) := by
  intro s s' hs
  rw [StateT.run_bind, StateT.run_bind]
  exact (h s s' hs).bind fun a b hab => hfg a.1 b.1 hab.1 a.2 b.2 hab.2

theorem Agree.mapM {ι κ : Type} {P : ι → κ → Prop} {R : α → β → Prop} {f : ι → BuildM α}
    {g : κ → BuildM β} {xs : List ι} {ys : List κ} (h : List.Forall₂ P xs ys)
    (hfg : ∀ x y, P x y → Agree R (f x) (g y)) :
    Agree (List.Forall₂ R) (xs.mapM f) (ys.mapM g) := by
  induction h with
  | nil => exact agree_pure .nil
  | cons hxy _ ih =>
      rw [List.mapM_cons, List.mapM_cons]
      refine (hfg _ _ hxy).seq fun a b hab => ?_
      exact ih.seq fun as bs hs => agree_pure (.cons hab hs)

/-! ### Expressions alike -/

section

variable (D : Display)

def texts (ts : List Tok) : List (List Char) := ts.map Tok.text

/-- Printed with the same texts and grouped alike. -/
structure ExprAlike (e f : Expr) : Prop where
  text : texts (D.expr e) = texts (D.expr f)
  containsOr : containsOr e = containsOr f

variable {D}

theorem texts_append (ts us : List Tok) : texts (ts ++ us) = texts ts ++ texts us :=
  List.map_append

theorem texts_cons (t : Tok) (ts : List Tok) : texts (t :: ts) = t.text :: texts ts := rfl

theorem render_eq_of_texts {ts us : List Tok} (h : texts ts = texts us) : render ts = render us := by
  have hflat (ts : List Tok) : render ts = (texts ts).flatten := List.flatMap_def ..
  rw [hflat, hflat, h]

theorem texts_commaSep {es fs : List Expr} (h : List.Forall₂ (ExprAlike D) es fs) :
    texts (commaSep (es.map D.expr)) = texts (commaSep (fs.map D.expr)) := by
  have htail {es fs : List Expr} (h : List.Forall₂ (ExprAlike D) es fs) :
      texts ((es.map D.expr).flatMap (.word ", " :: ·)) =
        texts ((fs.map D.expr).flatMap (.word ", " :: ·)) := by
    induction h with
    | nil => rfl
    | cons hef _ ih =>
        simp only [List.map_cons, List.flatMap_cons, List.cons_append, texts_cons, texts_append,
          hef.text, ih]
  cases h with
  | nil => rfl
  | cons hef h => simp only [List.map_cons, commaSep, texts_append, hef.text, htail h]

theorem ExprAlike.refl (e : Expr) : ExprAlike D e e := ⟨rfl, rfl⟩

theorem exprAlike_placeholder (text : String) (origin origin' : Origin) :
    ExprAlike D (valueExpr (.placeholder text origin)) (valueExpr (.placeholder text origin')) where
  text := by simp only [valueExpr, D.expr_placeholder, texts_cons, Tok.text_placeholder]
  containsOr := rfl

theorem ExprAlike.bin {l l' r r' : Expr} (op : BinaryOperator) (hl : ExprAlike D l l')
    (hr : ExprAlike D r r') : ExprAlike D (bin op l r) (bin op l' r') where
  text := by simp only [Dynamic.bin, D.expr_binaryOp, texts_append, texts_cons, hl.text, hr.text]
  containsOr := by
    cases op <;> simp [Dynamic.bin, Dynamic.containsOr, hl.containsOr, hr.containsOr]

theorem ExprAlike.nested {e f : Expr} (h : ExprAlike D e f) : ExprAlike D (.nested e) (.nested f)
    where
  text := by simp only [D.expr_nested, texts_append, texts_cons, h.text]
  containsOr := rfl

theorem ExprAlike.grouped {e f : Expr} (h : ExprAlike D e f) :
    ExprAlike D (grouped e) (grouped f) := by
  rw [Dynamic.grouped, Dynamic.grouped, h.containsOr]
  split
  · exact h.nested
  · exact h

theorem ExprAlike.reduce {op : Expr → Expr → Expr}
    (hop : ∀ l l' r r', ExprAlike D l l' → ExprAlike D r r' → ExprAlike D (op l r) (op l' r'))
    {es fs : List Expr} (h : List.Forall₂ (ExprAlike D) es fs) :
    Option.Rel (ExprAlike D) (reduce op es) (reduce op fs) := by
  have hfold {es fs : List Expr} (h : List.Forall₂ (ExprAlike D) es fs) {e f : Expr}
      (hef : ExprAlike D e f) : ExprAlike D (es.foldl op e) (fs.foldl op f) := by
    induction h generalizing e f with
    | nil => exact hef
    | cons hcd _ ih => exact ih (hop _ _ _ _ hef hcd)
  cases h with
  | nil => exact .none
  | cons hef h => exact .some (hfold h hef)

theorem ExprAlike.lower {e f : Expr} (h : ExprAlike D e f) :
    ExprAlike D (lowerExpr e) (lowerExpr f) where
  text := by
    simp only [lowerExpr, D.expr_call, texts_cons, texts_append,
      texts_commaSep (.cons h .nil)]
  containsOr := rfl

theorem ExprAlike.likeExpr {l l' r r' : Expr} (backend : Backend) (hl : ExprAlike D l l')
    (hr : ExprAlike D r r') : ExprAlike D (likeExpr backend l r) (likeExpr backend l' r') where
  text := by
    simp only [Dynamic.likeExpr, D.expr_like, texts_append, texts_cons, hl.text, hr.text]
  containsOr := rfl

theorem ExprAlike.like {e f : Expr} (backend : Backend) (col : String) (negated : Bool)
    (h : ExprAlike D e f) : ExprAlike D (like backend col e negated) (like backend col f negated)
    where
  text := by simp only [Dynamic.like, D.expr_like, texts_append, texts_cons, h.text]
  containsOr := rfl

theorem ExprAlike.unsafeLike {e f : Expr} (col : String) (negated : Bool) (h : ExprAlike D e f) :
    ExprAlike D (unsafeLike col e negated) (unsafeLike col f negated) where
  text := by simp only [Dynamic.unsafeLike, D.expr_like, texts_append, texts_cons, h.text]
  containsOr := rfl

theorem ExprAlike.ilike {e f : Expr} (col : String) (negated : Bool) (h : ExprAlike D e f) :
    ExprAlike D (ilike col e negated) (ilike col f negated) where
  text := by simp only [Dynamic.ilike, D.expr_ilike, texts_append, texts_cons, h.text]
  containsOr := rfl

theorem ExprAlike.between {low low' high high' : Expr} (col : String) (negated : Bool)
    (hlow : ExprAlike D low low') (hhigh : ExprAlike D high high') :
    ExprAlike D (between col low high negated) (between col low' high' negated) where
  text := by
    simp only [Dynamic.between, D.expr_between, texts_append, texts_cons, hlow.text, hhigh.text]
  containsOr := rfl

theorem ExprAlike.inList {es fs : List Expr} (col : String) (negated : Bool)
    (h : List.Forall₂ (ExprAlike D) es fs) :
    ExprAlike D (inList col es negated) (inList col fs negated) where
  text := by
    simp only [Dynamic.inList, D.expr_inList, texts_append, texts_cons, texts_commaSep h]
  containsOr := rfl

/-! ### Filters, search and cursor -/

theorem agree_bind (v w : FilterValue) : Agree (ExprAlike D) (bind cfg v) (bind cfg w) := by
  rintro ⟨binds, n⟩ ⟨binds', n'⟩ ⟨hn, hlength⟩
  dsimp only at hn hlength
  subst hn
  refine (BothEnd.same (nextPlaceholder cfg n)).bind ?_
  rintro ⟨placeholder, next⟩ _ rfl
  exact .ok ⟨exprAlike_placeholder _ _ _, rfl, by simp [hlength]⟩

theorem agree_binds {vs ws : List FilterValue} (h : vs.length = ws.length) :
    Agree (List.Forall₂ (ExprAlike D)) (vs.mapM (bind cfg)) (ws.mapM (bind cfg)) := by
  have hall : List.Forall₂ (fun _ _ => True) vs ws := List.forall₂_iff_get.mpr ⟨h, by simp⟩
  exact Agree.mapM hall fun v w _ => agree_bind v w

theorem agree_bind_with {op : Expr → Expr}
    (hop : ∀ e f, ExprAlike D e f → ExprAlike D (op e) (op f)) (v w : FilterValue) :
    Agree (ExprAlike D) (do return op (← bind cfg v)) (do return op (← bind cfg w)) :=
  (agree_bind v w).seq fun e f h => agree_pure (hop e f h)

theorem agree_compare (op : BinaryOperator) (field : String) (v w : FilterValue) :
    Agree (ExprAlike D) (do return bin op (idExpr field) (← bind cfg v))
      (do return bin op (idExpr field) (← bind cfg w)) :=
  agree_bind_with (fun _ _ h => .bin op (.refl _) h) v w

theorem shape_cases {v w : FilterValue} (h : v.shape = w.shape) :
    (∃ vs ws, v = .array vs ∧ w = .array ws ∧ vs.length = ws.length) ∨
      ((∀ vs, v ≠ .array vs) ∧ ∀ ws, w ≠ .array ws) := by
  cases v <;> cases w <;> simp [FilterValue.shape] at h ⊢
  exact h

theorem agree_inListFilter (operator : String) {f g : Filter} (h : f.Alike g) :
    Agree (ExprAlike D) (inListFilter cfg operator f) (inListFilter cfg operator g) := by
  obtain ⟨field, op, v, negated⟩ := f
  obtain ⟨field', op', w, negated'⟩ := g
  obtain ⟨rfl, rfl, rfl, hshape⟩ := h
  obtain ⟨vs, ws, rfl, rfl, hlength⟩ | ⟨hv, hw⟩ := shape_cases hshape
  · have hempty : vs.isEmpty = ws.isEmpty := by
      rw [Bool.eq_iff_iff, List.isEmpty_iff_length_eq_zero, List.isEmpty_iff_length_eq_zero,
        hlength]
    simp only [inListFilter, hempty]
    split_ifs
    · exact agree_throw _ _
    · exact (agree_binds hlength).seq fun es fs hes => agree_pure (.inList _ _ hes)
  · have hthrow {u : FilterValue} (hu : ∀ us, u ≠ .array us) :
        inListFilter cfg operator ⟨field, op, u, negated⟩ = throw (arrayRequired operator u) := by
      cases u with
      | array us => exact absurd rfl (hu us)
      | _ => rfl
    rw [hthrow hv, hthrow hw]
    exact agree_throw _ _

theorem agree_between (field : String) (negated : Bool) {v w : FilterValue}
    (hshape : v.shape = w.shape) :
    Agree (ExprAlike D) (filterExpr cfg ⟨field, .between, v, negated⟩)
      (filterExpr cfg ⟨field, .between, w, negated⟩) := by
  obtain ⟨vs, ws, rfl, rfl, hlength⟩ | ⟨hv, hw⟩ := shape_cases hshape
  · match vs, ws, hlength with
    | [], [], _ => exact agree_throw _ _
    | [_], [_], _ => exact agree_throw _ _
    | [low, high], [low', high'], _ =>
        refine (agree_bind (D := D) low low').seq fun e f he => ?_
        exact (agree_bind (D := D) high high').seq fun e' f' he' => agree_pure (.between _ _ he he')
    | _ :: _ :: _ :: _, _ :: _ :: _ :: _, _ => exact agree_throw _ _
  · have hthrow {u : FilterValue} (hu : ∀ us, u ≠ .array us) :
        filterExpr cfg ⟨field, .between, u, negated⟩ = throw (arrayRequired "Between" u) := by
      cases u with
      | array us => exact absurd rfl (hu us)
      | _ => rfl
    rw [hthrow hv, hthrow hw]
    exact agree_throw _ _

theorem agree_contains (field : String) (negated : Bool) {v w : FilterValue}
    (hshape : v.shape = w.shape) :
    Agree (ExprAlike D) (filterExpr cfg ⟨field, .contains, v, negated⟩)
      (filterExpr cfg ⟨field, .contains, w, negated⟩) := by
  cases v <;> cases w <;> simp [FilterValue.shape] at hshape
  case string.string => exact agree_bind_with (fun _ _ h => .like _ _ _ h) _ _
  all_goals exact agree_throw _ _

theorem agree_filterExpr {f g : Filter} (h : f.Alike g) :
    Agree (ExprAlike D) (filterExpr cfg f) (filterExpr cfg g) := by
  obtain ⟨field, op, v, negated⟩ := f
  obtain ⟨field', op', w, negated'⟩ := g
  have halike := h
  obtain ⟨rfl, rfl, rfl, hshape⟩ := h
  dsimp only at hshape
  cases op with
  | eq | ne | gt | gte | lt | lte => exact agree_compare _ _ _ _
  | like => exact agree_bind_with (fun _ _ h => .like _ _ _ h) v w
  | unsafeLike => exact agree_bind_with (fun _ _ h => .unsafeLike _ _ h) v w
  | iLike =>
      cases hbackend : cfg.backend with
      | postgres =>
          simp only [filterExpr, hbackend]
          exact agree_bind_with (fun _ _ h => .ilike _ _ h) v w
      | mysql | sqlite =>
          simp only [filterExpr, hbackend]
          exact agree_bind_with (fun _ _ h => .likeExpr _ (.refl _) h) _ _
  | between => exact agree_between field negated hshape
  | isNull | isNotNull => exact agree_pure (.refl _)
  | «in» | notIn => exact agree_inListFilter _ halike
  | contains => exact agree_contains field negated hshape

theorem agree_filterExprs {p q : Option FilterParams}
    (h : Option.Rel (fun f g => List.Forall₂ Filter.Alike f.filters g.filters) p q) :
    Agree (List.Forall₂ (ExprAlike D)) (filterExprs cfg p) (filterExprs cfg q) := by
  cases h with
  | none => exact agree_pure .nil
  | some h => exact Agree.mapM h fun f g hfg => agree_filterExpr hfg

theorem agree_searchCondition {p q : Option SearchParams}
    (h : Option.Rel SearchParams.Alike p q) :
    Agree (List.Forall₂ (ExprAlike D)) (searchCondition cfg p) (searchCondition cfg q) := by
  cases h with
  | none => exact agree_pure .nil
  | @some s t h =>
      obtain ⟨query, fields, caseSensitive, exactMatch⟩ := s
      obtain ⟨query', fields', caseSensitive', exactMatch'⟩ := t
      obtain ⟨rfl, rfl, rfl, hquery⟩ := h
      dsimp only at hquery
      simp only [searchCondition, searchExprs, hquery]
      split_ifs
      all_goals try exact agree_pure .nil
      all_goals
        refine Agree.mapM (List.forall₂_same.mpr fun x _ => rfl) ?_
        rintro field _ rfl
        refine (agree_bind (D := D) _ _).seq fun e f hef => ?_
        dsimp only
        split_ifs
        · exact agree_pure (.like _ _ _ hef)
        · exact agree_pure (.likeExpr _ (.refl _) hef.lower)

theorem agree_cursorRecursive (direction : CursorDirection) (sorts : List SortField)
    {vs ws : List FilterValue} (h : vs.length = ws.length) :
    Agree (ExprAlike D) (buildCursorConditionRecursive cfg direction sorts vs)
      (buildCursorConditionRecursive cfg direction sorts ws) := by
  induction sorts generalizing vs ws with
  | nil => exact agree_throw _ _
  | cons sort sorts ih =>
      match vs, ws, h with
      | [], [], _ => exact agree_throw _ _
      | v :: vs, w :: ws, h =>
          cases sorts with
          | nil => exact agree_bind_with (fun _ _ h => .bin _ (.refl _) h) v w
          | cons sort' sorts =>
              refine (agree_bind (D := D) v w).seq fun e f hef => ?_
              refine (ih (by simpa using h)).seq fun rest rest' hrest => ?_
              have heq : Agree (ExprAlike D) (eqPlaceholder cfg v e) (eqPlaceholder cfg w f) := by
                unfold eqPlaceholder
                split_ifs
                · exact agree_bind v w
                · exact agree_pure hef
              refine heq.seq fun eqValue eqValue' hvalue => agree_pure ?_
              have htail : ExprAlike D (if sorts.isEmpty then rest else .nested rest)
                  (if sorts.isEmpty then rest' else .nested rest') := by
                split_ifs
                · exact hrest
                · exact hrest.nested
              have hequality := ExprAlike.bin .eq (.refl (idExpr sort.field)) hvalue
              exact .bin .or (.bin _ (.refl _) hef) (ExprAlike.bin .and hequality htail).nested

theorem agree_cursorExpr (sortBy : Option SortingParams) {c d : CursorParams} (h : c.Alike d) :
    Agree (ExprAlike D) (cursorExpr cfg sortBy c) (cursorExpr cfg sortBy d) := by
  obtain ⟨direction, vs, error⟩ := c
  obtain ⟨direction', ws, error'⟩ := d
  obtain ⟨rfl, hlen, herror⟩ := h
  have hlength : vs.length = ws.length := hlen
  simp only [cursorExpr, herror, hlen]
  split_ifs with hfails
  · exact agree_throw _ _
  · cases sortBy with
    | none => exact agree_throw _ _
    | some sortBy =>
        dsimp only
        split_ifs
        · exact agree_throw _ _
        · cases direction with
          | none => exact agree_throw _ _
          | some direction =>
              have hrec : Agree (ExprAlike D)
                  (buildCursorConditionRecursive cfg direction sortBy.sorts vs)
                  (buildCursorConditionRecursive cfg direction sortBy.sorts ws) :=
                agree_cursorRecursive direction sortBy.sorts hlength
              match hsorts : sortBy.sorts, vs, ws, hlength with
              | [sort], [v], [w], _ =>
                  exact agree_bind_with (fun _ _ h => .bin _ (.refl _) h) v w
              | [], _, _, _ => rwa [hsorts] at hrec
              | [_], [], [], _ => rwa [hsorts] at hrec
              | [_], _ :: _ :: _, _ :: _ :: _, _ => rwa [hsorts] at hrec
              | _ :: _ :: _, _, _, _ => rwa [hsorts] at hrec

theorem agree_cursorCondition (sortBy : Option SortingParams) {p q : Option Pagination}
    (h : Option.Rel Pagination.Alike p q) :
    Agree (Option.Rel (ExprAlike D)) (cursorCondition cfg sortBy p)
      (cursorCondition cfg sortBy q) := by
  cases h with
  | none => exact agree_pure .none
  | @some p q h =>
      cases p <;> cases q
      case cursor.cursor c d =>
        have hcursor : c.Alike d := h
        have hempty : c.isEmpty = d.isEmpty := by
          have hlen := hcursor.len
          simp only [CursorParams.isEmpty, CursorParams.len] at hlen ⊢
          rw [Bool.eq_iff_iff, List.isEmpty_iff_length_eq_zero, List.isEmpty_iff_length_eq_zero,
            hlen]
        simp only [cursorCondition, hempty]
        split_ifs
        · exact agree_pure .none
        · exact (agree_cursorExpr sortBy hcursor).seq fun e f hef => agree_pure (.some hef)
      all_goals first | exact agree_pure .none | exact h.elim

/-! ### The statement -/

/-- Parts alike. -/
structure PartsAlike (D : Display) (p q : DynamicParts) : Prop where
  filters : List.Forall₂ (ExprAlike D) p.filters q.filters
  search : List.Forall₂ (ExprAlike D) p.search q.search
  cursor : Option.Rel (ExprAlike D) p.cursor q.cursor

theorem agree_dynamicParts {p q : Params} (h : p.Alike q) :
    Agree (PartsAlike D) (dynamicParts cfg p) (dynamicParts cfg q) := by
  refine (agree_filterExprs (D := D) h.filters).seq fun filters filters' hfilters => ?_
  refine (agree_searchCondition (D := D) h.search).seq fun search search' hsearch => ?_
  rw [h.sortBy]
  refine (agree_cursorCondition (D := D) _ h.pagination).seq fun cursor cursor' hcursor => ?_
  exact agree_pure ⟨hfilters, hsearch, hcursor⟩

theorem forall₂_toList {R : α → β → Prop} {a : Option α} {b : Option β} (h : Option.Rel R a b) :
    List.Forall₂ R a.toList b.toList := by
  cases h with
  | none => exact .nil
  | some h => exact .cons h .nil

theorem PartsAlike.combined {p q : DynamicParts} (h : PartsAlike D p q) :
    Option.Rel (ExprAlike D) p.combined q.combined := by
  have hfilters := ExprAlike.reduce (fun _ _ _ _ hl hr => .bin .and hl hr) h.filters
  have hsearch := ExprAlike.reduce (fun _ _ _ _ hl hr => .bin .or hl hr) h.search
  refine ExprAlike.reduce (fun _ _ _ _ hl hr => .bin .and hl.grouped hr.grouped) ?_
  exact List.rel_append (List.rel_append (forall₂_toList hfilters) (forall₂_toList hsearch))
    (forall₂_toList h.cursor)

theorem withDynamicWhere_alike (selection : Option Expr) {a b : Option Expr}
    (h : Option.Rel (ExprAlike D) a b) :
    Option.Rel (ExprAlike D) (withDynamicWhere selection a) (withDynamicWhere selection b) := by
  cases h with
  | none =>
      cases selection with
      | none => exact .none
      | some e => exact .some (.refl e)
  | some h =>
      cases selection with
      | none => exact .some h
      | some e => exact .some (.bin .and (.refl e) h.grouped)

theorem agree_processSelect {p q : Params} (h : p.Alike q) (select : Select) :
    Agree (fun s t => texts (D.setExpr (.select s)) = texts (D.setExpr (.select t)))
      (processSelect cfg p select) (processSelect cfg q select) := by
  refine (agree_dynamicParts (D := D) h).seq fun parts parts' hparts => agree_pure ?_
  have hwhere := withDynamicWhere_alike select.selection hparts.combined
  simp only [D.setExpr_select, texts_cons, texts_append]
  generalize withDynamicWhere select.selection parts.combined = a at hwhere ⊢
  generalize withDynamicWhere select.selection parts'.combined = b at hwhere ⊢
  cases hwhere with
  | none => rfl
  | some he => simp only [Option.elim_some, texts_cons, he.text]

theorem agree_processSetExpr {p q : Params} (h : p.Alike q) (e : SetExpr) :
    Agree (fun e f => texts (D.setExpr e) = texts (D.setExpr f)) (processSetExpr cfg p e)
      (processSetExpr cfg q e) := by
  fun_induction processSetExpr cfg p e with
  | case1 select =>
      exact (agree_processSelect (D := D) h select).seq fun s t hst => agree_pure hst
  | case2 op quantifier left right ihl ihr =>
      refine ihl.seq fun l l' hl => ihr.seq fun r r' hr => agree_pure ?_
      simp only [D.setExpr_setOperation, texts_append, texts_cons, hl, hr]
  | case3 ctes body order limit fetch rest ih =>
      refine ih.seq fun b b' hb => agree_pure ?_
      simp only [D.setExpr_query, D.query_eq, texts_append, texts_cons, hb]
  | case4 | case5 | case6 => exact agree_pure rfl

theorem limitPlusOne_alike {p q : Params} (h : p.Alike q) : p.limitPlusOne = q.limitPlusOne := by
  have hpagination := h.pagination
  unfold Params.limitPlusOne
  generalize p.pagination = a at hpagination ⊢
  generalize q.pagination = b at hpagination ⊢
  cases hpagination with
  | none => rfl
  | @some c d hcd => cases c <;> cases d <;> first | rfl | exact hcd.elim

theorem shouldInvertOrder_alike {p q : Params} (h : p.Alike q) :
    shouldInvertOrder p = shouldInvertOrder q := by
  have hpagination := h.pagination
  unfold shouldInvertOrder
  generalize p.pagination = a at hpagination ⊢
  generalize q.pagination = b at hpagination ⊢
  cases hpagination with
  | none => rfl
  | @some c d hcd =>
      cases c <;> cases d
      case cursor.cursor c d =>
        have hcursor : c.Alike d := hcd
        simp only [hcursor.direction]
      all_goals first | rfl | exact hcd.elim

theorem orderByFor_alike {p q : Params} (h : p.Alike q) (existing : Option OrderBy) :
    orderByFor p existing = orderByFor q existing := by
  rw [orderByFor, orderByFor, h.sortBy, shouldInvertOrder_alike h]

theorem limitClauseOf_alike {p q : Params} (h : p.Alike q) (existing : Option LimitClause) :
    limitClauseOf cfg p existing = limitClauseOf cfg q existing := by
  have hlimit : limitExprOf cfg p = limitExprOf cfg q := by
    rw [limitExprOf, limitExprOf, h.limit, limitPlusOne_alike h]
  have hoffset : offsetExprOf p = offsetExprOf q := by
    rw [offsetExprOf, offsetExprOf, h.offset]
  rw [limitClauseOf, limitClauseOf, hlimit, hoffset]

/-- Texts and the number of bind values. -/
def BuiltAlike (D : Display) (a b : Query × List FilterValue) : Prop :=
  texts (D.query a.1) = texts (D.query b.1) ∧ a.2.length = b.2.length

theorem processQuery_alike {p q : Params} (h : p.Alike q) (query : Query)
    (binds : List FilterValue) (maxExisting : ℕ) :
    BothEnd (BuiltAlike D) (processQuery cfg query p binds maxExisting)
      (processQuery cfg query q binds maxExisting) := by
  refine (BothEnd.same (addU8 cfg (startIndex binds.length maxExisting) 1)).bind ?_
  rintro n _ rfl
  refine (agree_processSetExpr (D := D) h query.body _ _ ⟨rfl, rfl⟩).bind ?_
  rintro ⟨body, s⟩ ⟨body', s'⟩ ⟨hbody, hs⟩
  dsimp only
  rw [orderByFor_alike h, limitClauseOf_alike h]
  refine (BothEnd.same (limitClauseOf cfg q query.limitClause)).bind ?_
  rintro limitClause _ rfl
  refine .ok ⟨?_, hs.length⟩
  simp only [D.query_eq, texts_append, hbody]

theorem isEmpty_alike {p q : Params} (h : p.Alike q) : p.isEmpty = q.isEmpty := by
  have hnone {α β : Type} {R : α → β → Prop} {a : Option α} {b : Option β}
      (hab : Option.Rel R a b) : a.isNone = b.isNone := by
    cases hab <;> rfl
  rw [Params.isEmpty, Params.isEmpty, hnone h.filters, hnone h.search, h.sortBy,
    hnone h.pagination, h.limit, h.offset]

theorem dynamicStatement_alike {p q : Params} (h : p.Alike q) (statement : Statement)
    (binds : List FilterValue) (maxExisting : ℕ) :
    BothEnd (fun a b => render (D.statement a.1) = render (D.statement b.1) ∧
        a.2.length = b.2.length)
      (dynamicStatement cfg statement p binds maxExisting)
      (dynamicStatement cfg statement q binds maxExisting) := by
  unfold dynamicStatement
  rw [isEmpty_alike h]
  split_ifs
  · exact .ok ⟨rfl, rfl⟩
  · cases statement with
    | other form => exact .error
    | query query =>
        refine (processQuery_alike (D := D) h query binds maxExisting).bind ?_
        rintro ⟨q₁, binds₁⟩ ⟨q₂, binds₂⟩ ⟨htexts, hlength⟩
        exact .ok ⟨render_eq_of_texts htexts, hlength⟩

/-! ### The built text -/

theorem length_picked (numbers : List ℕ) (maxExisting : ℕ) {binds binds' : List FilterValue}
    (h : binds.length = binds'.length) (order : List ℕ) :
    (order.filterMap (pickedBind binds numbers maxExisting)).length =
      (order.filterMap (pickedBind binds' numbers maxExisting)).length := by
  have hsome (k : ℕ) : (pickedBind binds numbers maxExisting k).isSome =
      (pickedBind binds' numbers maxExisting k).isSome := by
    unfold pickedBind
    cases bindPosition numbers maxExisting k with
    | none => rfl
    | some position =>
        rw [Bool.eq_iff_iff]
        simp [h]
  simp only [List.length_filterMap_eq_countP, hsome]

theorem renumber_alike (numbers : List ℕ) (maxExisting : ℕ) (printed : List Char)
    {binds binds' : List FilterValue} (h : binds.length = binds'.length) :
    (renumberNumberedPlaceholdersWithBinds binds numbers maxExisting printed).1 =
        (renumberNumberedPlaceholdersWithBinds binds' numbers maxExisting printed).1 ∧
      (renumberNumberedPlaceholdersWithBinds binds numbers maxExisting printed).2.length =
        (renumberNumberedPlaceholdersWithBinds binds' numbers maxExisting printed).2.length := by
  have hpicked := length_picked numbers maxExisting h (numberOrder printed)
  have hempty : ((numberOrder printed).filterMap (pickedBind binds numbers maxExisting)).isEmpty =
      ((numberOrder printed).filterMap (pickedBind binds' numbers maxExisting)).isEmpty := by
    rw [Bool.eq_iff_iff, List.isEmpty_iff_length_eq_zero, List.isEmpty_iff_length_eq_zero, hpicked]
  simp only [renumberNumberedPlaceholdersWithBinds_eq, hempty]
  split_ifs
  · exact ⟨rfl, h⟩
  · exact ⟨rfl, hpicked⟩

theorem baseBinds_alike {p q : Params} (h : p.Alike q) (baseSql : List Char)
    (statement : Statement) (initialBinds : List FilterValue) :
    baseBinds baseSql statement p initialBinds = baseBinds baseSql statement q initialBinds := by
  cases statement <;> simp only [baseBinds, h.limit, h.offset]

/-- No value gets into the text: for requests alike the build fails for both,
or it prints one text and binds equally many values. -/
theorem values_never_in_text (cfg : Config) (D : Display) (parser : Core.Parser)
    (baseSql : List Char) (initialBinds : List FilterValue) {p q : Params} (h : p.Alike q) :
    BothEnd (fun a b => a.sql = b.sql ∧ a.bindValues.length = b.bindValues.length)
      (buildDynamicSql cfg D parser baseSql p initialBinds)
      (buildDynamicSql cfg D parser baseSql q initialBinds) := by
  unfold buildDynamicSql
  refine (BothEnd.same _).bind ?_
  rintro statementOpt _ rfl
  cases statementOpt with
  | none => exact .error
  | some statement =>
      dsimp only
      rw [baseBinds_alike h]
      refine (dynamicStatement_alike (D := D) h statement _ _).bind ?_
      rintro ⟨st, binds⟩ ⟨st', binds'⟩ ⟨htext, hlength⟩
      obtain ⟨hsql, hbinds⟩ := renumber_alike (baseBinds baseSql statement q initialBinds).2
        (maxPlaceholder (baseBinds baseSql statement q initialBinds).2)
        (render (D.statement st')) hlength
      refine .ok ⟨?_, ?_⟩
      · dsimp only at htext ⊢
        rw [htext]
        exact hsql
      · dsimp only at htext ⊢
        rw [htext]
        exact hbinds

end

open Reference Example

/-- A value that reads like the end of a string and a placeholder. -/
def inNowhere : Params :=
  { Params.default with filters := some ⟨[⟨"city", .eq, .string "' OR $7", false⟩]⟩ }

/-- `SELECT * FROM users` -/
def wholeTable : Query := simpleQuery (.select (simpleSelect [.wildcard] "users" none))

theorem nowhere_never_in_text :
    ∃ built built',
      buildDynamicSql (build .postgres) Display.reference (parserOf wholeTable) (text wholeTable)
        inBonn [] = .ok built ∧
      buildDynamicSql (build .postgres) Display.reference (parserOf wholeTable) (text wholeTable)
        inNowhere [] = .ok built' ∧
      built.sql = built'.sql ∧ built.bindValues.length = built'.bindValues.length := by
  have halike : inBonn.Alike inNowhere :=
    ⟨.some (.cons ⟨rfl, rfl, rfl, rfl⟩ .nil), .none, rfl, rfl, rfl, .none⟩
  have hboth := values_never_in_text (build .postgres) Display.reference (parserOf wholeTable)
    (text wholeTable) [] halike
  refine ⟨_, _, rfl, rfl, ?_⟩
  cases hboth with
  | ok h => exact h

end Dynamic

end SqlxData
