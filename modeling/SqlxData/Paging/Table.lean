import SqlxData.Lib.Seek
import SqlxData.Dynamic.CursorStatement
import SqlxData.Dynamic.WhereText

/-!
What a database answers to a page statement, by the definition of WHERE, ORDER
BY and LIMIT, and what this is for a cursor that stands for a row: the rows
next to it in the sort order.
-/

namespace SqlxData.Paging

open SqlxData.Sqlparser SqlxData.Dynamic BoolText ThreeValued Seek

/-! ### Tables -/

/-- The rows the base SELECT has without WHERE; the value of a column, `none`
for NULL; and the value a bound argument stands for. -/
structure Table (Row V : Type) where
  rows : List Row
  column : Row → String → Option V
  bound : FilterValue → Option V

variable {Row V : Type} [LinearOrder V]

/-- The comparison an operator stands for. -/
def comparison : BinaryOperator → Option (V → V → Bool)
  | .eq => some fun a b => a = b
  | .notEq => some fun a b => a ≠ b
  | .gt => some fun a b => b < a
  | .lt => some fun a b => a < b
  | .gtEq => some fun a b => b ≤ a
  | .ltEq => some fun a b => a ≤ b
  | _ => none

/-- The directions of a sort list, columns first; `true` is ascending. -/
abbrev SortKeys := List (String × Bool)

/-- The columns an ORDER BY over plain columns sorts by. -/
def orderKeys : Option OrderBy → SortKeys
  | some ⟨.expressions es, _⟩ => es.filterMap fun e =>
      match e.expr with
      | .identifier c => some (c.value, e.options.asc.getD true)
      | _ => none
  | _ => []

/-- The number of rows a plain LIMIT keeps. -/
def limitCount : Option LimitClause → Option ℕ
  | some (.limitOffset (some (.value (.number text _))) none []) =>
      some (Nat.ofDigitChars 10 text.toList 0)
  | _ => none

namespace Table

variable (t : Table Row V)

/-- The value bound to `$k`. -/
def placeholder (binds : List FilterValue) (text : String) : Option V := do
  let k ← (placeholderNumbers text.toList).head?
  let v ← (none :: binds.map some)[k]?.join
  t.bound v

/-- The truth of a comparison of a column with a placeholder on a row; a page
statement has no other operands. -/
def truth (binds : List FilterValue) (row : Row) : Expr → Truth
  | .binaryOp (.identifier c) op (.value (.placeholder text _)) =>
      match comparison op with
      | some test => Truth.lift₂ test (t.column row c.value) (t.placeholder binds text)
      | none => .unknown
  | _ => .unknown

def key (ks : SortKeys) (row : Row) : List (Option V) := ks.map fun k => t.column row k.1

/-- One row comes before another in the order of the columns. -/
def Before (ks : SortKeys) (r r' : Row) : Prop := Precedes (ks.map Prod.snd) (t.key ks r) (t.key ks r')

instance (ks : SortKeys) (r r' : Row) : Decidable (t.Before ks r r') :=
  inferInstanceAs (Decidable (Precedes (ks.map Prod.snd) (t.key ks r) (t.key ks r')))

open Classical in
/-- The rows that pass a WHERE. -/
noncomputable def passing (clause : Option Expr) (binds : List FilterValue) : List Row :=
  t.rows.filter fun row => PassesClause (t.truth binds row) clause

/-- `result` is an answer to the query: the rows that pass the WHERE, in an
order that respects ORDER BY, up to the LIMIT. -/
def Answers (q : Query) (binds : List FilterValue) (result : List Row) : Prop :=
  ∃ s ordered, q.body = .select s ∧ ordered.Perm (t.passing s.selection binds) ∧
    ordered.Pairwise (fun r r' => ¬t.Before (orderKeys q.orderBy) r' r) ∧
    result = (limitCount q.limitClause).elim ordered ordered.take

/-- The sort columns have no NULL and tell the rows apart. -/
structure Keyed (ks : SortKeys) : Prop where
  nonNull : ∀ r ∈ t.rows, ∀ k ∈ ks, (t.column r k.1).isSome
  distinct : t.rows.Pairwise fun r r' => t.key ks r ≠ t.key ks r'

/-- `S` is the table in the order of the columns. -/
def Sorted (ks : SortKeys) (S : List Row) : Prop := S.Perm t.rows ∧ S.Pairwise (t.Before ks)

end Table

/-- The sort columns of a sort list, turned around for a cursor that goes
backwards. -/
def sortKeys (sorts : List SortField) (invert : Bool) : SortKeys :=
  sorts.map fun s => (s.field, if invert then !s.isAsc else s.isAsc)

theorem orderKeys_orderByOf (sorts : List SortField) (invert : Bool) :
    orderKeys (some (orderByOf sorts invert)) = sortKeys sorts invert := by
  simp only [orderKeys, orderByOf, sortKeys, List.filterMap_map]
  rw [← List.filterMap_eq_map]
  rfl

omit [LinearOrder V] in
theorem key_sortKeys {t : Table Row V} (sorts : List SortField) (invert : Bool) (row : Row) :
    t.key (sortKeys sorts invert) row = sorts.map fun s => t.column row s.field := by
  simp [Table.key, sortKeys]

theorem limitCount_pageLimit (limit : UInt32) :
    limitCount (some (pageLimit limit)) = some (limit.toNat + 1) := by
  simp [limitCount, pageLimit, numberExpr, valueExpr, Nat.toString_eq_repr, Nat.toList_repr,
    Nat.ofDigitChars_ten_toDigits]

/-! ### Sorted tables -/

section Sorted

variable {t : Table Row V} {ks : SortKeys} {S : List Row}

theorem before_asymm (r r' : Row) (h : t.Before ks r r') : ¬t.Before ks r' r := Precedes.asymm h

theorem before_trans (r r' r'' : Row) (h : t.Before ks r r') (h' : t.Before ks r' r'') :
    t.Before ks r r'' := Precedes.trans h h'

theorem Table.Keyed.comparable (h : t.Keyed ks) :
    t.rows.Pairwise fun r r' => t.Before ks r r' ∨ t.Before ks r' r := by
  have hsome : ∀ r ∈ t.rows, ∀ a ∈ t.key ks r, a.isSome := by
    intro r hr a ha
    obtain ⟨k, hk, rfl⟩ := List.mem_map.mp ha
    exact h.nonNull r hr k hk
  refine h.distinct.imp_of_mem fun hr hr' hne => ?_
  exact precedes_or_of_ne (by simp [Table.key]) (by simp [Table.key]) (hsome _ hr) (hsome _ hr') hne

theorem Table.Keyed.exists_sorted (h : t.Keyed ks) : ∃ S, t.Sorted ks S :=
  Seek.exists_sorted before_trans before_asymm h.comparable

/-- An order that respects the sort columns is the sorted one. -/
theorem Table.Sorted.eq_of_perm (h : t.Sorted ks S) {p : Row → Bool} {ordered : List Row}
    (hperm : ordered.Perm (S.filter p))
    (hordered : ordered.Pairwise fun r r' => ¬t.Before ks r' r) : ordered = S.filter p :=
  Seek.eq_of_perm before_asymm (h.2.filter p) hperm hordered

/-- The table turned around is sorted the other way. -/
theorem Table.Sorted.reverse {sorts : List SortField} (h : t.Sorted (sortKeys sorts false) S) :
    t.Sorted (sortKeys sorts true) S.reverse := by
  refine ⟨(List.reverse_perm S).trans h.1, ?_⟩
  rw [List.pairwise_reverse]
  refine h.2.imp fun {r r'} hr => ?_
  have hdirections : (sortKeys sorts true).map Prod.snd =
      ((sortKeys sorts false).map Prod.snd).map (! ·) := by simp [sortKeys]
  rw [Table.Before, hdirections, precedes_map_not, key_sortKeys, key_sortKeys,
    ← key_sortKeys sorts false, ← key_sortKeys sorts false]
  exact hr

end Sorted

/-! ### The rows a page statement selects -/

section Seeking

variable {t : Table Row V}

theorem satisfies_cursorAlternative (value : Expr → Truth) (direction : CursorDirection)
    (sort : SortField) (v eqValue rest : Expr) (restIsLast : Bool) :
    Satisfies value (cursorAlternative direction sort v eqValue rest restIsLast) ↔
      Satisfies value (bin (cursorOperator direction sort.isAsc) (idExpr sort.field) v) ∨
        Satisfies value (bin .eq (idExpr sort.field) eqValue) ∧ Satisfies value rest := by
  have hrest : Satisfies value (if restIsLast then rest else .nested rest) ↔
      Satisfies value rest := by
    split
    · exact Iff.rfl
    · exact holds_paren _
  refine (holds_or _ _).trans (or_congr Iff.rfl ?_)
  exact (holds_paren _).trans ((holds_and _ _).trans (and_congr Iff.rfl hrest))

omit [LinearOrder V] in
theorem placeholder_append (before values : List FilterValue) (v : FilterValue)
    (hn : before.length + 1 < usizeBound) :
    t.placeholder (before ++ v :: values) ("$" ++ toString (before.length + 1)) = t.bound v := by
  rw [Table.placeholder, placeholderNumbers_dollar hn]
  simp

theorem lift₂_gt (a b : Option V) :
    Truth.lift₂ (fun x y => decide (y < x)) a b = .holds ↔ Ahead true b a := by
  cases a <;> cases b <;> simp [Truth.lift₂, Ahead]

theorem lift₂_lt (a b : Option V) :
    Truth.lift₂ (fun x y => decide (x < y)) a b = .holds ↔ Ahead false b a := by
  cases a <;> cases b <;> simp [Truth.lift₂, Ahead]

theorem lift₂_eq (a b : Option V) :
    Truth.lift₂ (fun x y => decide (x = y)) a b = .holds ↔ Same b a := by
  cases a <;> cases b <;> simp [Truth.lift₂, Same]

variable (before values : List FilterValue) (v : FilterValue) (row : Row) (sort : SortField)

/-- The comparison of one column: the row comes behind the cursor value in the
direction the page is fetched in. -/
theorem satisfies_cursorComparison (direction : CursorDirection)
    (hn : before.length + 1 < usizeBound) :
    Satisfies (t.truth (before ++ v :: values) row)
        (bin (cursorOperator direction sort.isAsc) (idExpr sort.field)
          (seekPlaceholder (before.length + 1) v)) ↔
      Ahead (if direction = .before then !sort.isAsc else sort.isAsc) (t.bound v)
        (t.column row sort.field) := by
  obtain ⟨hand, hor⟩ := cursorOperator_ne direction sort.isAsc
  rw [Satisfies, (isOperand_bin hand hor sort.field rfl).skeleton, Holds, Formula.eval, bin, idExpr,
    seekPlaceholder, valueExpr]
  cases direction <;> cases sort.isAsc <;>
    simp only [cursorOperator, Table.truth, comparison, placeholder_append before values v hn] <;>
    first | exact lift₂_gt _ _ | exact lift₂_lt _ _

theorem satisfies_cursorEquality (hn : before.length + 1 < usizeBound) :
    Satisfies (t.truth (before ++ v :: values) row)
        (bin .eq (idExpr sort.field) (seekPlaceholder (before.length + 1) v)) ↔
      Same (t.bound v) (t.column row sort.field) := by
  rw [Satisfies, (isOperand_bin (by decide) (by decide) sort.field rfl).skeleton, Holds, Formula.eval,
    bin, idExpr, seekPlaceholder, valueExpr]
  simp only [Table.truth, comparison, placeholder_append before values v hn]
  exact lift₂_eq _ _

/-- The cursor condition holds on the rows behind the cursor, in the order the
page is fetched in. -/
theorem satisfies_seekExpr (direction : CursorDirection) {sorts : List SortField}
    (hsorts : sorts ≠ []) (hlength : values.length = sorts.length)
    (hn : before.length + sorts.length < usizeBound) :
    Satisfies (t.truth (before ++ values) row)
        (seekExpr direction sorts (before.length + 1) values) ↔
      Precedes ((sortKeys sorts (direction = .before)).map Prod.snd) (values.map t.bound)
        (t.key (sortKeys sorts (direction = .before)) row) := by
  induction sorts generalizing before values with
  | nil => exact absurd rfl hsorts
  | cons sort sorts ih =>
      obtain ⟨v, values, rfl⟩ := List.exists_cons_of_length_eq_add_one hlength
      have hone : before.length + 1 < usizeBound := by simp at hn; omega
      have hcomparison := satisfies_cursorComparison (t := t) before values v row sort direction hone
      rcases sorts with _ | ⟨sort', sorts⟩
      · obtain rfl : values = [] := by simpa using hlength
        rw [seekExpr, hcomparison]
        simp [sortKeys, Table.key, Precedes]
      · have hrest := ih (before ++ [v]) values (by simp) (by simpa using hlength)
          (by simp at hn ⊢; omega)
        rw [List.append_assoc, List.singleton_append, List.length_append, List.length_singleton]
          at hrest
        rw [seekExpr, satisfies_cursorAlternative, hcomparison, hrest,
          satisfies_cursorEquality before values v row sort hone]
        simp [sortKeys, Table.key, Precedes]

theorem canonical_seekExpr (direction : CursorDirection) {sorts : List SortField}
    (hsorts : sorts ≠ []) (hlength : values.length = sorts.length) (hcount : sorts.length ≤ 10) :
    (seekExpr direction sorts 1 values).skeleton.Canonical := by
  have hrun := @run_buildCursorConditionRecursive ⟨.postgres, true, id⟩ (by decide) direction
    sorts values hsorts hlength [] 1 (by omega)
  exact (yields_cursorCondition direction sorts values _ _ _ hrun).1.canonical

end Seeking

/-! ### The answers to page statements -/

section Answers

variable {t : Table Row V} {sorts : List SortField} {S result : List Row} {q : Query} {s : Select}
  {limit : UInt32}

/-- The rows that pass a WHERE, taken out of the sorted table. -/
theorem perm_passing (hS : S.Perm t.rows) {clause : Option Expr} {binds : List FilterValue}
    {p : Row → Bool} (hp : ∀ row ∈ S, p row = true ↔ PassesClause (t.truth binds row) clause) :
    (S.filter p).Perm (t.passing clause binds) := by
  classical
  have hfilter : S.filter p = S.filter fun row => decide (PassesClause (t.truth binds row) clause) :=
    List.filter_congr fun row hrow => by rw [Bool.eq_iff_iff, hp row hrow, decide_eq_true_iff]
  rw [hfilter]
  exact hS.filter _

/-- The rows that pass the WHERE of a page statement, in the order they are
fetched in. -/
theorem eq_take_of_answers {cursor : CursorParams}
    (hS : t.Sorted (sortKeys sorts (cursor.direction = some .before)) S)
    (hresult : t.Answers (pageQuery q s sorts limit cursor) cursor.values result)
    {p : Row → Bool} (hp : ∀ row ∈ S, p row = true ↔
      PassesClause (t.truth cursor.values row) (seekWhere sorts cursor)) :
    result = (S.filter p).take (limit.toNat + 1) := by
  obtain ⟨_, ordered, hbody, hperm, hordered, rfl⟩ := hresult
  obtain rfl := SetExpr.select.inj hbody
  simp only [pageQuery, orderKeys_orderByOf, limitCount_pageLimit] at hperm hordered ⊢
  rw [hS.eq_of_perm (hperm.trans (perm_passing hS.1 hp).symm) hordered]
  rfl

/-- The first page takes the first rows. -/
theorem answers_firstPage (hS : t.Sorted (sortKeys sorts false) S)
    (hresult : t.Answers (pageQuery q s sorts limit .firstPage) [] result) :
    result = S.take (limit.toNat + 1) := by
  have h := @eq_take_of_answers _ _ _ t sorts S result q s limit .firstPage hS hresult (fun _ => true)
    (by simp [PassesClause, seekWhere, CursorParams.firstPage, CursorParams.default])
  simpa using h

/-- The WHERE of a page beyond a cursor. -/
theorem passesClause_seekWhere (hsorts : sorts ≠ []) (hcount : sorts.length ≤ 10)
    (direction : CursorDirection) {values : List FilterValue}
    (hlength : values.length = sorts.length) (row : Row) :
    PassesClause (t.truth values row) (seekWhere sorts (.fromValues values direction)) ↔
      Precedes ((sortKeys sorts (direction = .before)).map Prod.snd) (values.map t.bound)
        (t.key (sortKeys sorts (direction = .before)) row) := by
  have hn : ([] : List FilterValue).length + sorts.length < usizeBound := by
    rw [usizeBound, List.length_nil]
    omega
  simp only [PassesClause, seekWhere, CursorParams.fromValues, Option.map_some,
    Option.mem_some_iff, forall_eq']
  rw [passesText_of_canonical (canonical_seekExpr values direction hsorts hlength hcount)]
  exact satisfies_seekExpr [] values row direction hsorts hlength hn

/-- A page beyond a row takes the rows behind it, in the order of the fetch. -/
theorem answers_beyond {direction : CursorDirection} {values : List FilterValue}
    (hsorts : sorts ≠ []) (hcount : sorts.length ≤ 10) {x : Row} {pre post : List Row}
    (hS : t.Sorted (sortKeys sorts (direction = .before)) (pre ++ x :: post))
    (hx : values.map t.bound = sorts.map fun s => t.column x s.field)
    (hresult : t.Answers (pageQuery q s sorts limit (.fromValues values direction)) values result) :
    result = post.take (limit.toNat + 1) := by
  classical
  have hlength : values.length = sorts.length := by simpa using congrArg List.length hx
  have hpasses : ∀ row ∈ pre ++ x :: post,
      decide (t.Before (sortKeys sorts (direction = .before)) x row) = true ↔
        PassesClause (t.truth values row) (seekWhere sorts (.fromValues values direction)) := by
    intro row _
    rw [passesClause_seekWhere hsorts hcount direction hlength row, hx, decide_eq_true_iff,
      Table.Before, key_sortKeys sorts _ x]
  have hanswer := @eq_take_of_answers _ _ _ t sorts (pre ++ x :: post) result q s limit
    (.fromValues values direction) (by simpa [CursorParams.fromValues] using hS) hresult _ hpasses
  rw [hanswer, filter_eq_behind before_asymm hS.2 (fun row _ => decide_eq_true_iff)]

/-- A page statement has an answer: the rows that pass its WHERE, in the order
of the sorted table. -/
theorem answers_of_sorted {cursor : CursorParams}
    (hS : t.Sorted (sortKeys sorts (cursor.direction = some .before)) S) {p : Row → Bool}
    (hp : ∀ row ∈ S, p row = true ↔
      PassesClause (t.truth cursor.values row) (seekWhere sorts cursor)) :
    t.Answers (pageQuery q s sorts limit cursor) cursor.values
      ((S.filter p).take (limit.toNat + 1)) := by
  refine ⟨_, S.filter p, rfl, perm_passing hS.1 hp, ?_, ?_⟩
  · simp only [pageQuery, orderKeys_orderByOf]
    exact (hS.2.filter p).imp fun hr => before_asymm _ _ hr
  · simp only [pageQuery, limitCount_pageLimit]
    rfl

end Answers

end SqlxData.Paging
