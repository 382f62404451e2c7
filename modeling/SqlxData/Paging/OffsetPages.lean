import SqlxData.Dynamic.CursorStatement
import SqlxData.Dynamic.Validation
import SqlxData.Dynamic.WhereText
import SqlxData.Lib.Pieces
import SqlxData.Params.Response

/-!
Pages by number. A generated method that returns `Slice` or `Serial` pages, the
statement it sends for each page, and what the pages are when the database
keeps to LIMIT and OFFSET: the result cut into windows.
-/

namespace SqlxData

/-! ### Requests for a window -/

/-- What `slice().page(..)` and `serial().page(..)` make of a request. -/
def windowRequest (params : Params) (pagination : Pagination) (limit offset : UInt32) : Params :=
  { params with pagination := some pagination, limit := some limit, offset := some offset }

def Pagination.isCursor : Pagination → Bool
  | .cursor _ => true
  | _ => false

namespace Dynamic

open SqlxData.Sqlparser

variable {cfg : Config} {params params' : Params} {pagination pagination' : Pagination}
  {limit offset offset' : UInt32}

theorem processSetExpr_congr (h : dynamicParts cfg params = dynamicParts cfg params')
    (e : SetExpr) : processSetExpr cfg params e = processSetExpr cfg params' e := by
  fun_induction processSetExpr cfg params e with
  | case1 s => simp only [processSetExpr, processSelect, h]
  | case2 op quantifier left right ihl ihr => simp only [processSetExpr, ihl, ihr]
  | case3 ctes body order limit fetch rest ih => simp only [processSetExpr, ih]
  | case4 rows => rfl
  | case5 name => rfl
  | case6 form args => rfl

theorem dynamicParts_window (hcursor : pagination.isCursor = false) :
    dynamicParts cfg (windowRequest params pagination limit offset) =
      dynamicParts cfg { params with pagination := none } := by
  cases pagination with
  | cursor cursor => cases hcursor
  | serial serial => rfl
  | slice slice => rfl

theorem shouldInvertOrder_window (hcursor : pagination.isCursor = false) :
    shouldInvertOrder (windowRequest params pagination limit offset) = false := by
  cases pagination with
  | cursor cursor => cases hcursor
  | serial serial => rfl
  | slice slice => rfl

def windowClause (count : ℕ) (offset : UInt32) : LimitClause :=
  .limitOffset (some (numberExpr count)) (some { value := numberExpr offset.toNat, rows := .none }) []

theorem limitClauseOf_window (existing : Option LimitClause) :
    limitClauseOf cfg (windowRequest params pagination limit offset) existing =
      (addU32 cfg limit (windowRequest params pagination limit offset).limitPlusOne).map fun actual =>
        some (windowClause actual.toNat offset) := by
  simp only [limitClauseOf, limitExprOf, windowRequest]
  cases addU32 cfg limit _ <;> rfl

theorem addU32_eq {a b sum : UInt32} (h : addU32 cfg a b = .ok sum) : sum = a + b := by
  rw [addU32] at h
  split at h
  · cases h
  · exact (Except.ok.inj h).symm

theorem isEmpty_windowRequest : (windowRequest params pagination limit offset).isEmpty = false := by
  simp [windowRequest, Params.isEmpty]

theorem dynamicStatement_query (hparams : params.isEmpty = false) (q : Query)
    (binds : List FilterValue) (maxExisting : ℕ) :
    dynamicStatement cfg (.query q) params binds maxExisting =
      (processQuery cfg q params binds maxExisting).map fun r => (.query r.1, r.2) := by
  rw [dynamicStatement, if_neg (by simp [hparams])]
  simp only
  cases processQuery cfg q params binds maxExisting <;> rfl

/-- The same request with another offset: the same query, with this offset. -/
theorem processQuery_window (hcursor : pagination.isCursor = false)
    (hcursor' : pagination'.isCursor = false)
    (hplus : (windowRequest params pagination limit offset).limitPlusOne =
      (windowRequest params pagination' limit offset').limitPlusOne)
    {q q' : Query} {binds binds' : List FilterValue} {maxExisting : ℕ}
    (h : processQuery cfg q (windowRequest params pagination limit offset) binds maxExisting =
      .ok (q', binds')) :
    processQuery cfg q (windowRequest params pagination' limit offset') binds maxExisting =
      .ok ({ q' with limitClause := some (windowClause
        (limit + (windowRequest params pagination limit offset).limitPlusOne).toNat offset') },
        binds') := by
  rw [processQuery] at h
  obtain ⟨n, hn, h⟩ := Core.exists_of_bind_eq_ok h
  obtain ⟨⟨body, state⟩, hbody, h⟩ := Core.exists_of_bind_eq_ok h
  obtain ⟨clause, hclause, h⟩ := Core.exists_of_bind_eq_ok h
  obtain ⟨rfl, rfl⟩ := Prod.mk.inj (Except.ok.inj h)
  rw [limitClauseOf_window] at hclause
  cases hactual : addU32 cfg limit (windowRequest params pagination limit offset).limitPlusOne with
  | error err => rw [hactual] at hclause; cases hclause
  | ok actual =>
      have hsame : dynamicParts cfg (windowRequest params pagination limit offset) =
          dynamicParts cfg (windowRequest params pagination' limit offset') := by
        rw [dynamicParts_window hcursor, dynamicParts_window hcursor']
      have hclause' : limitClauseOf cfg (windowRequest params pagination' limit offset')
          q.limitClause = .ok (some (windowClause actual.toNat offset')) := by
        rw [limitClauseOf_window, ← hplus, hactual]
        rfl
      rw [processSetExpr_congr hsame] at hbody
      simp only [processQuery, hn, Bind.bind, Except.bind, hbody, hclause', addU32_eq hactual]
      simp only [orderByFor, shouldInvertOrder_window hcursor, shouldInvertOrder_window hcursor']
      rfl

end Dynamic

namespace Paging

open SqlxData.Sqlparser SqlxData.Dynamic

/-! ### Methods -/

/-- A generated method that returns pages by number: the build it is part of,
its arguments, and the database it talks to. `totalElements` is the count of
the statement that was sent, by the query made of it. -/
structure PagedMethod (Row : Type) where
  cfg : Config
  display : Display
  parser : Core.Parser
  baseSql : List Char
  initialBinds : List FilterValue
  database : List Char → List FilterValue → List Row
  totalElements : List Char → List FilterValue → Except SqlxError Int64

variable {Row : Type}

namespace PagedMethod

def build (m : PagedMethod Row) (params : Params) : Except SqlxError BuiltSql :=
  buildDynamicSql m.cfg m.display m.parser m.baseSql params m.initialBinds

/-- The body of a method that returns `Serial`. -/
def fetchSerial (m : PagedMethod Row) (params : Params) : Except SqlxError (Serial Row) := do
  validateFields params
  let builtSql ← m.build params
  let data := m.database builtSql.sql builtSql.bindValues
  let totalElements ← m.totalElements builtSql.sql builtSql.bindValues
  .ok (Serial.new data params totalElements)

/-- The body of a method that returns `Slice`. -/
def fetchSlice (m : PagedMethod Row) (params : Params) : Except SqlxError (Slice Row) := do
  validateFields params
  let builtSql ← m.build params
  let data := m.database builtSql.sql builtSql.bindValues
  let totalElements ←
    if !params.isDisableTotalCount then m.totalElements builtSql.sql builtSql.bindValues else .ok 0
  .ok (Slice.new data params totalElements)

/-- The query made of the base query `q` for a request, and its bind values. -/
def statement (m : PagedMethod Row) (q : Query) (params : Params) :
    Except SqlxError (Statement × List FilterValue) :=
  let (binds, numbers) := baseBinds m.baseSql (.query q) params m.initialBinds
  dynamicStatement m.cfg (.query q) params binds (maxPlaceholder numbers)

/-- The query whose print is sent for a request. -/
def Emits (m : PagedMethod Row) (params : Params) (q' : Query) : Prop :=
  ∃ q binds, Core.parseSql m.parser m.baseSql = .ok (some (.query q)) ∧
    m.statement q params = .ok (.query q', binds)

variable {m : PagedMethod Row} {params : Params} {pagination pagination' : Pagination}
  {limit offset offset' : UInt32}

theorem statement_of_baseBinds {q : Query} {binds : List FilterValue} {numbers : List ℕ}
    (h : baseBinds m.baseSql (.query q) params m.initialBinds = (binds, numbers)) :
    m.statement q params =
      dynamicStatement m.cfg (.query q) params binds (maxPlaceholder numbers) := by
  rw [statement, h]

theorem statement_eq (hparams : params.isEmpty = false) (q : Query) :
    ∃ binds maxExisting, baseBinds m.baseSql (.query q) params m.initialBinds = binds ∧
      maxExisting = maxPlaceholder binds.2 ∧ m.statement q params =
        (processQuery m.cfg q params binds.1 maxExisting).map fun r => (.query r.1, r.2) :=
  ⟨_, _, rfl, rfl, dynamicStatement_query hparams q _ _⟩

theorem exists_emits {built : BuiltSql} (hparams : params.isEmpty = false)
    (h : m.build params = .ok built) : ∃ q', m.Emits params q' := by
  rw [build, buildDynamicSql] at h
  obtain ⟨statementOpt, hparse, h⟩ := Core.exists_of_bind_eq_ok h
  have hparsed : Core.parseSql m.parser m.baseSql = .ok statementOpt := by
    cases hcase : Core.parseSql m.parser m.baseSql with
    | error err => rw [hcase] at hparse; cases hparse
    | ok found => rw [hcase] at hparse; exact congrArg _ (Except.ok.inj hparse)
  rcases statementOpt with _ | q | form
  · cases h
  · obtain ⟨⟨printed, binds⟩, hprinted, -⟩ := Core.exists_of_bind_eq_ok h
    have hstatement : m.statement q params = .ok (printed, binds) := hprinted
    obtain ⟨base, maxExisting, -, -, heq⟩ := m.statement_eq hparams q
    have hquery := heq.symm.trans hstatement
    cases hcase : processQuery m.cfg q params base.1 maxExisting with
    | error err => rw [hcase] at hquery; cases hquery
    | ok processed =>
        rw [hcase] at hquery
        obtain ⟨rfl, rfl⟩ := Prod.mk.inj (Except.ok.inj hquery)
        exact ⟨processed.1, q, processed.2, hparsed, hstatement⟩
  · obtain ⟨printed, hprinted, -⟩ := Core.exists_of_bind_eq_ok h
    rw [dynamicStatement, if_neg (by simp [hparams])] at hprinted
    cases hprinted

/-- The same request with another offset sends the same query, with this
offset. -/
theorem Emits.window {q' : Query} (h : m.Emits (windowRequest params pagination limit offset) q')
    (hcursor : pagination.isCursor = false) (hcursor' : pagination'.isCursor = false)
    (hplus : (windowRequest params pagination limit offset).limitPlusOne =
      (windowRequest params pagination' limit offset').limitPlusOne) :
    m.Emits (windowRequest params pagination' limit offset')
      { q' with limitClause := some (windowClause
        (limit + (windowRequest params pagination limit offset).limitPlusOne).toNat offset') } := by
  obtain ⟨q, binds, hparse, hstatement⟩ := h
  obtain ⟨base, maxExisting, hbase, hmax, heq⟩ := m.statement_eq
    (@isEmpty_windowRequest params pagination limit offset) q
  obtain ⟨_, _, rfl, rfl, heq'⟩ := m.statement_eq
    (@isEmpty_windowRequest params pagination' limit offset') q
  have hsame : baseBinds m.baseSql (.query q) (windowRequest params pagination' limit offset')
      m.initialBinds = base := hbase
  rw [hsame, ← hmax] at heq'
  rw [heq] at hstatement
  cases hcase : processQuery m.cfg q (windowRequest params pagination limit offset) base.1
      maxExisting with
  | error err => rw [hcase] at hstatement; cases hstatement
  | ok processed =>
      rw [hcase] at hstatement
      obtain ⟨hprinted, -⟩ := Prod.mk.inj (Except.ok.inj hstatement)
      obtain rfl := Statement.query.inj hprinted
      refine ⟨q, processed.2, hparse, ?_⟩
      rw [heq', processQuery_window hcursor hcursor' hplus hcase]
      rfl

theorem Emits.build {q' : Query} (h : m.Emits params q') : ∃ built, m.build params = .ok built := by
  obtain ⟨q, binds, hparse, hstatement⟩ := h
  have hprinted : dynamicStatement m.cfg (.query q) params
      (baseBinds m.baseSql (.query q) params m.initialBinds).1
      (maxPlaceholder (baseBinds m.baseSql (.query q) params m.initialBinds).2) =
        .ok (.query q', binds) := hstatement
  rw [PagedMethod.build, buildDynamicSql]
  simp only [hparse, Except.mapError, Bind.bind, Except.bind, hprinted]
  exact ⟨_, rfl⟩

end PagedMethod

/-! ### What a window shows -/

/-- The number a literal stands for. -/
def literal : Expr → Option ℕ
  | .value (.number text _) => some (Nat.ofDigitChars 10 text.toList 0)
  | _ => none

/-- The rows LIMIT and OFFSET leave of a result. -/
def windowOf (clause : Option LimitClause) (rows : List Row) : List Row :=
  match clause with
  | some (.limitOffset limit offset []) =>
      let behind := (offset.bind fun o => literal o.value).elim rows (rows.drop ·)
      (limit.bind literal).elim behind (behind.take ·)
  | _ => rows

theorem literal_numberExpr (n : ℕ) : literal (numberExpr n) = some n := by
  simp [literal, numberExpr, valueExpr, Nat.toString_eq_repr, Nat.toList_repr,
    Nat.ofDigitChars_ten_toDigits]

theorem windowOf_windowClause (count : ℕ) (offset : UInt32) (rows : List Row) :
    windowOf (some (windowClause count offset)) rows = (rows.drop offset.toNat).take count := by
  simp [windowOf, windowClause, literal_numberExpr]

/-- The result the requests are about is `S`, in this order: to the statement
of each page the database answers with the rows of `S` its LIMIT and OFFSET
name. -/
def AnswersFrom (m : PagedMethod Row) (request : UInt32 → Params) (S : List Row) : Prop :=
  ∀ p q' built, m.Emits (request p) q' → m.build (request p) = .ok built →
    m.database built.sql built.bindValues = windowOf q'.limitClause S

/-- When the build succeeds for one page, it does for every page, and the
database answers with the rows from the offset of the page on. -/
theorem AnswersFrom.page {m : PagedMethod Row} {request : UInt32 → Params} {S : List Row}
    (h : AnswersFrom m request S) {params : Params} {pagination pagination' : Pagination}
    {limit offset offset' : UInt32} {built : BuiltSql} {p : UInt32}
    (hbuilt : m.build (windowRequest params pagination limit offset) = .ok built)
    (hp : request p = windowRequest params pagination' limit offset')
    (hcursor : pagination.isCursor = false) (hcursor' : pagination'.isCursor = false)
    (hplus : (windowRequest params pagination limit offset).limitPlusOne =
      (windowRequest params pagination' limit offset').limitPlusOne) :
    ∃ built', m.build (request p) = .ok built' ∧
      m.database built'.sql built'.bindValues = (S.drop offset'.toNat).take
        (limit + (windowRequest params pagination limit offset).limitPlusOne).toNat := by
  obtain ⟨q', hq'⟩ := PagedMethod.exists_emits isEmpty_windowRequest hbuilt
  have hemits := hq'.window hcursor hcursor' hplus
  rw [← hp] at hemits
  obtain ⟨built', hbuilt'⟩ := hemits.build
  refine ⟨built', hbuilt', ?_⟩
  rw [h p _ built' hemits hbuilt', windowOf_windowClause]

/-! ### Slices -/

/-- A request with `slice().page(p, s)`. -/
def slicePage (params : Params) (s p : UInt32) : Params :=
  ParamsBuilder.sliceDone params (.new p s)

/-- The slices fetched from a page number on, up to the first that has no
next one. -/
inductive SliceWalk (m : PagedMethod Row) (params : Params) (s : UInt32) :
    UInt32 → List (Slice Row) → Prop
  | last {p page} : m.fetchSlice (slicePage params s p) = .ok page → page.hasNext = false →
      SliceWalk m params s p [page]
  | more {p page pages} : m.fetchSlice (slicePage params s p) = .ok page → page.hasNext = true →
      SliceWalk m params s (p + 1) pages → SliceWalk m params s p (page :: pages)

section Slices

variable {m : PagedMethod Row} {params : Params} {s p : UInt32} {S : List Row}

theorem SliceWalk.unique {pages pages' : List (Slice Row)} (h : SliceWalk m params s p pages)
    (h' : SliceWalk m params s p pages') : pages' = pages := by
  induction h generalizing pages' with
  | last hfetch hlast =>
      cases h' with
      | last hfetch' _ => rw [Except.ok.inj (hfetch'.symm.trans hfetch)]
      | more hfetch' hmore _ =>
          rw [Except.ok.inj (hfetch'.symm.trans hfetch), hlast] at hmore
          cases hmore
  | more hfetch hmore _ ih =>
      cases h' with
      | last hfetch' hlast =>
          rw [Except.ok.inj (hfetch'.symm.trans hfetch), hmore] at hlast
          cases hlast
      | more hfetch' _ hrest =>
          rw [Except.ok.inj (hfetch'.symm.trans hfetch), ih hrest]

/-- The offset of a page, which is cut off at the greatest number. -/
theorem toNat_pageOffset (p s : UInt32) :
    (saturatingMul (saturatingSub p 1) s).toNat = min ((p.toNat - 1) * s.toNat) (2 ^ 32 - 1) := by
  rw [toNat_saturatingMul, toNat_saturatingSub, UInt32.toNat_one]

/-- The slice with number `p`. -/
def sliceAt (S : List Row) (s p : UInt32) : Slice Row :=
  ⟨Pieces.piece S s.toNat (p.toNat - 1), p, s, p.toNat * s.toNat < S.length, 1 < p, none⟩

theorem slicePage_eq (hs : 1 ≤ s.toNat) (hp : 1 ≤ p.toNat) :
    slicePage params s p = windowRequest params (.slice ⟨p, s, true⟩) s
      (saturatingMul (saturatingSub p 1) s) := by
  simp only [slicePage, ParamsBuilder.sliceDone, SliceParams.new, SliceParams.limit,
    SliceParams.offset, max_one_of_pos hs, max_one_of_pos hp, windowRequest]

theorem validateFields_window {pagination : Pagination} {limit offset : UInt32}
    (hcursor : pagination.isCursor = false) :
    validateFields (windowRequest params pagination limit offset) =
      validateSorting params.sortBy := by
  have hdone : (validateSorting params.sortBy >>= fun _ => .ok ()) =
      validateSorting params.sortBy := by
    cases validateSorting params.sortBy <;> rfl
  cases pagination with
  | cursor cursor => cases hcursor
  | serial serial => exact hdone
  | slice slice => exact hdone

theorem trimToPage_eq (data : List Row) (size : UInt32) :
    Slice.trimToPage data size = (decide (size.toNat < data.length), data.take size.toNat) := by
  rw [Slice.trimToPage]
  split
  · rename_i h
    rw [decide_eq_true h]
  · rename_i h
    rw [decide_eq_false h, List.take_of_length_le (Nat.le_of_not_lt h)]

/-- One row more than the page was asked for, and it tells whether there is a
next page. -/
theorem new_sliceAt (hs : 1 ≤ s.toNat) (hp : 1 ≤ p.toNat) (offset : UInt32) :
    Slice.new ((S.drop ((p.toNat - 1) * s.toNat)).take (s.toNat + 1))
      (windowRequest params (.slice ⟨p, s, true⟩) s offset) 0 = sliceAt S s p := by
  have hsize : (windowRequest params (.slice ⟨p, s, true⟩) s offset).pageSize = s := max_one_of_pos hs
  have hnumber : p.toNat * s.toNat = (p.toNat - 1) * s.toNat + s.toNat := by
    rw [← Nat.succ_mul, Nat.succ_eq_add_one, Nat.sub_add_cancel hp]
  have hnext : s.toNat < ((S.drop ((p.toNat - 1) * s.toNat)).take (s.toNat + 1)).length ↔
      p.toNat * s.toNat < S.length := by
    rw [hnumber, List.length_take, List.length_drop]
    omega
  simp only [Slice.new, hsize, trimToPage_eq, sliceAt, Pieces.piece, List.take_take]
  simp only [windowRequest, Nat.min_eq_left (Nat.le_succ _), decide_eq_decide.mpr hnext, if_true]

theorem limitPlusOne_slice (slice : SliceParams) (limit offset : UInt32) :
    (windowRequest params (.slice slice) limit offset).limitPlusOne = 1 := rfl

/-- Every slice of a request the method accepts. -/
theorem fetchSlice_page (hs : 1 ≤ s.toNat) (hlimit : s.toNat < 2 ^ 32 - 1)
    (hS : S.length < 2 ^ 32) (hanswers : AnswersFrom m (slicePage params s) S)
    {first : Slice Row} (hfirst : m.fetchSlice (slicePage params s 1) = .ok first)
    (hp : 1 ≤ p.toNat) : m.fetchSlice (slicePage params s p) = .ok (sliceAt S s p) := by
  rw [slicePage_eq hs (by decide)] at hfirst
  obtain ⟨_, hvalid, hfirst⟩ := Core.exists_of_bind_eq_ok hfirst
  obtain ⟨built, hbuilt, -⟩ := Core.exists_of_bind_eq_ok hfirst
  obtain ⟨built', hbuilt', hdata⟩ := hanswers.page hbuilt (slicePage_eq hs hp) rfl rfl
    (by rw [limitPlusOne_slice, limitPlusOne_slice])
  rw [slicePage_eq hs hp] at hbuilt' ⊢
  rw [validateFields_window rfl] at hvalid
  rw [limitPlusOne_slice] at hdata
  have hcount : (s + 1).toNat = s.toNat + 1 := by
    rw [UInt32.toNat_add, UInt32.toNat_one]
    omega
  have hrows : m.database built'.sql built'.bindValues =
      (S.drop ((p.toNat - 1) * s.toNat)).take (s.toNat + 1) := by
    rw [hdata, toNat_pageOffset, Pieces.drop_min (by omega), hcount]
  have hvalid' : validateFields (windowRequest params (.slice ⟨p, s, true⟩) s
      (saturatingMul (saturatingSub p 1) s)) = .ok () := by
    rw [validateFields_window rfl, hvalid]
  simp only [PagedMethod.fetchSlice, hvalid', hbuilt', Bind.bind, Except.bind, hrows]
  exact congrArg Except.ok (new_sliceAt hs hp _)

/-- From a page on, the walk fetches the rows behind it. -/
theorem walk_from (hs : 1 ≤ s.toNat) (hS : S.length < 2 ^ 32)
    (hfetch : ∀ p : UInt32, 1 ≤ p.toNat → m.fetchSlice (slicePage params s p) = .ok (sliceAt S s p))
    (hp : 1 ≤ p.toNat) :
    ∃ pages, SliceWalk m params s p pages ∧
      pages.flatMap (·.data) = S.drop ((p.toNat - 1) * s.toNat) ∧
      pages.map (·.page.toNat) = List.range' p.toNat pages.length := by
  -- a row less is left behind every page
  induction hn : S.length - p.toNat using Nat.strongRecOn generalizing p with
  | _ n ih =>
      have hnumber : p.toNat - 1 + 1 = p.toNat := Nat.sub_add_cancel hp
      by_cases hnext : p.toNat * s.toNat < S.length
      · have hle : p.toNat ≤ p.toNat * s.toNat := Nat.le_mul_of_pos_right _ hs
        have hsucc : (p + 1).toNat = p.toNat + 1 := by
          rw [UInt32.toNat_add, UInt32.toNat_one]
          omega
        obtain ⟨pages, hwalk, hrows, hnumbers⟩ := ih _ (by rw [hsucc]; omega)
          (show 1 ≤ (p + 1).toNat by omega) rfl
        refine ⟨sliceAt S s p :: pages, .more (hfetch p hp) (decide_eq_true hnext) hwalk, ?_, ?_⟩
        · have hpieces := Pieces.piece_append_drop S s.toNat (p.toNat - 1)
          rw [hnumber] at hpieces
          rw [List.flatMap_cons, hrows, hsucc, Nat.add_sub_cancel]
          exact hpieces
        · rw [List.map_cons, hnumbers, hsucc]
          rfl
      · refine ⟨[sliceAt S s p], .last (hfetch p hp) (decide_eq_false hnext), ?_, rfl⟩
        have hpieces := Pieces.piece_append_drop S s.toNat (p.toNat - 1)
        rw [hnumber, List.drop_eq_nil_of_le (Nat.le_of_not_lt hnext), List.append_nil] at hpieces
        rw [List.flatMap_singleton]
        exact hpieces

/-- The walk from the first slice ends, with one list of slices: numbered from
1 on, they hold the rows in order. On every slice the flags say what stands
around it. -/
theorem slice_walk_complete (hs : 1 ≤ s.toNat) (hlimit : s.toNat < 2 ^ 32 - 1)
    (hS : S.length < 2 ^ 32) (hanswers : AnswersFrom m (slicePage params s) S)
    (haccepted : ∃ page, m.fetchSlice (slicePage params s 1) = .ok page) :
    (∃ pages, SliceWalk m params s 1 pages ∧
      (∀ pages', SliceWalk m params s 1 pages' → pages' = pages) ∧
      pages.flatMap (·.data) = S ∧
      pages.map (·.page.toNat) = List.range' 1 pages.length) ∧
    ∀ p : UInt32, 1 ≤ p.toNat → ∃ page, m.fetchSlice (slicePage params s p) = .ok page ∧
      (page.hasNext ↔ p.toNat * s.toNat < S.length) ∧ (page.hasPrevious ↔ 1 < p.toNat) ∧
      page.data.length ≤ s.toNat := by
  obtain ⟨first, hfirst⟩ := haccepted
  have hfetch : ∀ p : UInt32, 1 ≤ p.toNat →
      m.fetchSlice (slicePage params s p) = .ok (sliceAt S s p) :=
    fun p hp => fetchSlice_page hs hlimit hS hanswers hfirst hp
  refine ⟨?_, fun p hp => ⟨_, hfetch p hp, decide_eq_true_iff, ?_, Pieces.length_piece_le _ _ _⟩⟩
  · obtain ⟨pages, hwalk, hrows, hnumbers⟩ := walk_from (p := 1) hs hS hfetch (by decide)
    refine ⟨pages, hwalk, fun pages' => hwalk.unique, ?_, hnumbers⟩
    simpa using hrows
  · rw [sliceAt, decide_eq_true_iff, UInt32.lt_iff_toNat_lt, UInt32.toNat_one]

end Slices

/-! ### Serial pages -/

/-- A request with `serial().page(p, perPage)`. -/
def serialPage (params : Params) (perPage p : UInt32) : Params :=
  ParamsBuilder.serialDone params (.new p perPage)

section Serials

variable {m : PagedMethod Row} {params : Params} {perPage p : UInt32} {S : List Row}

theorem serialPage_eq (perPage p : UInt32) :
    serialPage params perPage p = windowRequest params (.serial ⟨max p 1, max perPage 1⟩)
      (max perPage 1) (saturatingMul (saturatingSub (max p 1) 1) (max perPage 1)) := rfl

theorem limitPlusOne_serial (serial : SerialParams) (limit offset : UInt32) :
    (windowRequest params (.serial serial) limit offset).limitPlusOne = 0 := rfl

/-- The serial page with number `p`. -/
def serialAt (S : List Row) (perPage p : UInt32) : Serial Row :=
  ⟨Pieces.piece S (max perPage 1).toNat ((max p 1).toNat - 1), max p 1, max perPage 1,
    Int64.ofNat S.length,
    Serial.calculateTotalPages (Int64.ofNat S.length) (max perPage 1)⟩

theorem new_serialAt (S : List Row) (perPage p offset : UInt32) :
    Serial.new (Pieces.piece S (max perPage 1).toNat ((max p 1).toNat - 1))
      (windowRequest params (.serial ⟨max p 1, max perPage 1⟩) (max perPage 1) offset)
      (Int64.ofNat S.length) = serialAt S perPage p := by
  have hsize : max (max perPage 1) 1 = max perPage 1 := by
    refine max_one_of_pos ?_
    rw [toNat_max_one]
    omega
  simp only [Serial.new, windowRequest, SerialParams.limit, hsize, serialAt]

/-- Every serial page of a request the method accepts. -/
theorem fetchSerial_page (hS : S.length < 2 ^ 32)
    (hanswers : AnswersFrom m (serialPage params perPage) S)
    (htotal : ∀ p built, m.build (serialPage params perPage p) = .ok built →
      m.totalElements built.sql built.bindValues = .ok (Int64.ofNat S.length))
    {first : Serial Row} (hfirst : m.fetchSerial (serialPage params perPage 1) = .ok first) :
    m.fetchSerial (serialPage params perPage p) = .ok (serialAt S perPage p) := by
  rw [serialPage_eq] at hfirst
  obtain ⟨_, hvalid, hfirst⟩ := Core.exists_of_bind_eq_ok hfirst
  obtain ⟨built, hbuilt, -⟩ := Core.exists_of_bind_eq_ok hfirst
  obtain ⟨built', hbuilt', hdata⟩ := hanswers.page hbuilt (serialPage_eq perPage p) rfl rfl
    (by rw [limitPlusOne_serial, limitPlusOne_serial])
  have hcount := htotal p built' hbuilt'
  rw [limitPlusOne_serial, toNat_pageOffset, Pieces.drop_min (by omega), UInt32.add_zero] at hdata
  have hvalid' : validateFields (serialPage params perPage p) = .ok () := by
    rw [serialPage_eq, validateFields_window rfl]
    rwa [validateFields_window rfl] at hvalid
  simp only [PagedMethod.fetchSerial, hvalid', hbuilt', hcount, Bind.bind, Except.bind, hdata]
  exact congrArg Except.ok (new_serialAt S perPage p _)

/-- The pages up to the reported total are the rows in order, each on one page;
no row is on a page behind it. -/
theorem serial_pages_partition (hS : S.length < 2 ^ 32)
    (hanswers : AnswersFrom m (serialPage params perPage) S)
    (htotal : ∀ p built, m.build (serialPage params perPage p) = .ok built →
      m.totalElements built.sql built.bindValues = .ok (Int64.ofNat S.length))
    (haccepted : ∃ page, m.fetchSerial (serialPage params perPage 1) = .ok page) :
    let size := max perPage.toNat 1
    let total := (S.length + (size - 1)) / size
    ∃ pageOf : UInt32 → Serial Row,
      (∀ p, m.fetchSerial (serialPage params perPage p) = .ok (pageOf p)) ∧
      (∀ p, (pageOf p).totalPages.toNat = total) ∧
      (List.range' 1 total).flatMap (fun p => (pageOf (UInt32.ofNat p)).data) = S ∧
      (∀ p, 1 ≤ p.toNat → p.toNat ≤ total → (pageOf p).data ≠ []) ∧
      (∀ p p', 1 ≤ p.toNat → p.toNat < p'.toNat →
        ((pageOf p).data ++ (pageOf p').data).Sublist S ∧
          (S.Nodup → (pageOf p).data.Disjoint (pageOf p').data)) ∧
      ∀ p, total < p.toNat → (pageOf p).data = [] := by
  intro size total
  obtain ⟨first, hfirst⟩ := haccepted
  have hsize : (max perPage 1).toNat = size := toNat_max_one perPage
  have hpos : 0 < size := by omega
  have hdata : ∀ p : UInt32, 1 ≤ p.toNat →
      (serialAt S perPage p).data = Pieces.piece S size (p.toNat - 1) := by
    intro p hp
    rw [serialAt, hsize, max_one_of_pos hp]
  have hmany : total ≤ S.length := Pieces.count_le hpos S.length
  -- the rows of a page number, and whether there are any
  have hshown : ∀ p : UInt32, 1 ≤ p.toNat → ((serialAt S perPage p).data = [] ↔ total < p.toNat) := by
    intro p hp
    have hcount : p.toNat - 1 < total ↔ (p.toNat - 1) * size < S.length := Pieces.lt_count_iff hpos
    rw [hdata p hp, Pieces.piece_eq_nil_iff hpos]
    omega
  refine ⟨serialAt S perPage, fun p => fetchSerial_page hS hanswers htotal hfirst, fun p => ?_, ?_,
    fun p hp htop hnil => ?_, fun p p' hp hlt => ?_, fun p hp =>
      (hshown p (Nat.lt_of_le_of_lt (Nat.zero_le _) hp)).mpr hp⟩
  · have hitems : (Int64.ofNat S.length).toInt = S.length := Int64.toInt_ofNat_of_lt (by omega)
    have hpages := toNat_calculateTotalPages hitems hS (show 1 ≤ (max perPage 1).toNat by omega)
    rw [hsize] at hpages
    exact hpages
  · rw [List.range'_eq_map_range, List.flatMap_map]
    have hpieces := Pieces.flatMap_count (l := S) hpos
    refine Eq.trans (List.flatMap_congr fun i hi => ?_) hpieces
    have hlt : i < total := List.mem_range.mp hi
    have hnumber : (UInt32.ofNat (1 + i)).toNat = 1 + i := by
      refine UInt32.toNat_ofNat_of_lt' ?_
      rw [UInt32.size]
      omega
    rw [hdata _ (by omega), hnumber, Nat.add_sub_cancel_left]
  · have hbehind := (hshown p hp).mp hnil
    omega
  · rw [hdata p hp, hdata p' (by omega)]
    have hlt' : p.toNat - 1 < p'.toNat - 1 := by omega
    exact ⟨Pieces.sublist_of_lt hlt', fun hnodup => Pieces.disjoint_of_ne hnodup (Nat.ne_of_lt hlt')⟩

end Serials

/-! ### A result with four rows -/

namespace OffsetExample

open Reference NumberedText

def users : Query := simpleQuery (.select (simpleSelect [.wildcard] "users" none))

def windowText (offset : UInt32) : List Char :=
  "SELECT * FROM users LIMIT 3 OFFSET ".toList ++ (toString offset.toNat).toList

/-- Four rows, of which a statement that ends with LIMIT 3 and an OFFSET gets
those behind the offset. -/
def listUsers : PagedMethod ℕ where
  cfg := Dynamic.Example.build .postgres
  display := .reference
  parser := parserOf users
  baseSql := text users
  initialBinds := []
  database sql _ := ([1, 2, 3, 4].drop (Nat.ofDigitChars 10 (sql.drop 35) 0)).take 3
  totalElements _ _ := .ok 4

def windowQuery (offset : UInt32) : Query := { users with limitClause := some (windowClause 3 offset) }

def windowTokens (offset : UInt32) : List Tok :=
  [.word "SELECT ", .word "*", .word " FROM ", .word "users", .word " LIMIT ", .word "3",
    .word " OFFSET ", .word (toString offset.toNat)]

theorem tokens_windowQuery (offset : UInt32) :
    Display.reference.query (windowQuery offset) = windowTokens offset := by
  rfl

theorem render_windowTokens (offset : UInt32) : render (windowTokens offset) = windowText offset := by
  have hwords : ["SELECT ", "*", " FROM ", "users", " LIMIT ", "3", " OFFSET "].flatMap
      String.toList = "SELECT * FROM users LIMIT 3 OFFSET ".toList := by decide
  unfold windowText
  rw [← hwords]
  simp only [windowTokens, render, List.flatMap_cons, List.flatMap_nil, Tok.text_word,
    List.append_nil, List.append_assoc]

theorem plainWords_windowTokens (offset : UInt32) : PlainWords (windowTokens offset) := by
  have hnumber : placeholderNumbers (toString offset.toNat).toList = [] := by
    refine numbers_pieces_of_plain fun hdollar => ?_
    have := isDigit_of_mem_toString hdollar
    simp at this
  unfold windowTokens
  iterate 7 refine plainWords_cons.mpr ⟨by decide, ?_⟩
  exact plainWords_cons.mpr ⟨hnumber, by simp [PlainWords]⟩

theorem marks_windowTokens (offset : UInt32) : marks (windowTokens offset) = [] := by
  rfl

theorem numberedAnew_windowText (offset : UInt32) :
    numberedAnew (text users) (windowText offset) [] = ⟨windowText offset, []⟩ := by
  have hseparated : Separated (windowTokens offset) := by
    rw [← tokens_windowQuery]
    exact Display.reference.separated (windowQuery offset)
  have hplain := plainWords_windowTokens offset
  rw [← render_windowTokens]
  refine numberedAnew_of_numberOrder (by decide) hseparated hplain ?_ ?_
  · rw [marks_windowTokens]
    simp
  · rw [numberOrder, placeholderNumbers_of_plainWords hseparated hplain, marks_windowTokens]
    rfl

theorem database_windowText (offset : UInt32) :
    listUsers.database (windowText offset) [] = ([1, 2, 3, 4].drop offset.toNat).take 3 := by
  have hdigits : (windowText offset).drop 35 = (toString offset.toNat).toList :=
    List.drop_left' (by decide)
  have hnumber : Nat.ofDigitChars 10 (toString offset.toNat).toList 0 = offset.toNat := by
    simp [Nat.toString_eq_repr, Nat.toList_repr, Nat.ofDigitChars_ten_toDigits]
  simp only [listUsers, hdigits, hnumber]

/-- The requests for which the method sends the query with three rows a page. -/
theorem listUsers_answers {request : UInt32 → Params} {offset : UInt32 → UInt32}
    (hbase : ∀ p, baseBinds (text users) (.query users) (request p) [] = ([], []))
    (h : ∀ p, dynamicStatement listUsers.cfg (.query users) (request p) [] 0 =
      .ok (.query (windowQuery (offset p)), [])) :
    (∀ p, listUsers.build (request p) = .ok ⟨windowText (offset p), []⟩) ∧
      AnswersFrom listUsers request [1, 2, 3, 4] := by
  have hparse : Core.parseSql listUsers.parser listUsers.baseSql = .ok (some (.query users)) := by
    rfl
  have hbuild : ∀ p, listUsers.build (request p) = .ok ⟨windowText (offset p), []⟩ := by
    intro p
    have hnumbers : collectNumberedPlaceholders (text users) = [] := by decide
    have hbuilt := @buildDynamicSql_of_baseBinds listUsers.cfg listUsers.display _ _ _ hparse
      (request p) [] [] ((hbase p).trans (congrArg (Prod.mk []) hnumbers.symm))
    have hmax : maxPlaceholder (collectNumberedPlaceholders listUsers.baseSql) = 0 := by
      rw [show listUsers.baseSql = text users from rfl, hnumbers]
      rfl
    rw [hmax, h p] at hbuilt
    rw [← numberedAnew_windowText, ← render_windowTokens, ← tokens_windowQuery]
    exact hbuilt
  refine ⟨hbuild, fun p q' built hemits hbuilt => ?_⟩
  obtain rfl := Except.ok.inj ((hbuild p).symm.trans hbuilt)
  obtain ⟨q, binds, hparsed, hstatement⟩ := hemits
  obtain rfl : users = q := Statement.query.inj
    (Option.some.inj (Except.ok.inj (hparse.symm.trans hparsed)))
  have hsame : listUsers.statement users (request p) = .ok (.query (windowQuery (offset p)), []) := by
    rw [← h p, PagedMethod.statement_of_baseBinds (hbase p)]
    rfl
  obtain ⟨hquery, -⟩ := Prod.mk.inj (Except.ok.inj (hsame.symm.trans hstatement))
  obtain rfl := Statement.query.inj hquery
  rw [database_windowText, windowQuery, windowOf_windowClause]

end OffsetExample

open OffsetExample

/-- Walking through the four rows, two a slice. -/
theorem slice_walk_listUsers :
    (∃ pages, SliceWalk listUsers .default 2 1 pages ∧
      (∀ pages', SliceWalk listUsers .default 2 1 pages' → pages' = pages) ∧
      pages.flatMap (·.data) = [1, 2, 3, 4] ∧
      pages.map (·.page.toNat) = List.range' 1 pages.length) ∧
    ∀ p : UInt32, 1 ≤ p.toNat → ∃ page, listUsers.fetchSlice (slicePage .default 2 p) = .ok page ∧
      (page.hasNext ↔ p.toNat * 2 < 4) ∧ (page.hasPrevious ↔ 1 < p.toNat) ∧
      page.data.length ≤ 2 := by
  have hlist := @listUsers_answers (slicePage .default 2)
    (fun p => saturatingMul (saturatingSub (max p 1) 1) 2) (fun p => rfl) (fun p => rfl)
  exact slice_walk_complete (by decide) (by decide) (by decide) hlist.2
    ⟨_, by simp only [PagedMethod.fetchSlice, hlist.1]; rfl⟩

/-- The four rows, three a page. -/
theorem serial_pages_listUsers :
    ∃ pageOf : UInt32 → Serial ℕ,
      (∀ p, listUsers.fetchSerial (serialPage .default 3 p) = .ok (pageOf p)) ∧
      (∀ p, (pageOf p).totalPages.toNat = 2) ∧
      (List.range' 1 2).flatMap (fun p => (pageOf (UInt32.ofNat p)).data) = [1, 2, 3, 4] ∧
      (∀ p, 1 ≤ p.toNat → p.toNat ≤ 2 → (pageOf p).data ≠ []) ∧
      (∀ p p', 1 ≤ p.toNat → p.toNat < p'.toNat →
        ((pageOf p).data ++ (pageOf p').data).Sublist [1, 2, 3, 4] ∧
          ([1, 2, 3, 4].Nodup → (pageOf p).data.Disjoint (pageOf p').data)) ∧
      ∀ p, 2 < p.toNat → (pageOf p).data = [] := by
  have hlist := @listUsers_answers (serialPage .default 3)
    (fun p => saturatingMul (saturatingSub (max p 1) 1) 3) (fun p => rfl) (fun p => rfl)
  exact serial_pages_partition (by decide) hlist.2 (fun p built h => rfl)
    ⟨_, by simp only [PagedMethod.fetchSerial, hlist.1]; rfl⟩

end Paging

end SqlxData
