import SqlxData.Dynamic.Success
import SqlxData.Paging.FetchPage
import SqlxData.Paging.OffsetPages

/-!
The row that tells whether there is a next page. The builder adds it to the
LIMIT of the request for some paginations, and the responses compute the size
of the page again, from the same request.
-/

namespace SqlxData

/-! ### The LIMIT of a statement -/

namespace Dynamic

open SqlxData.Sqlparser

variable {cfg : Config} {params : Params} {q q' : Query} {binds binds' : List FilterValue}
  {maxExisting : ℕ}

/-- The body of the query with the conditions of the request. -/
def processBody (cfg : Config) (q : Query) (params : Params) (binds : List FilterValue)
    (maxExisting : ℕ) : Except SqlxError (SetExpr × BindState) := do
  let n ← addU8 cfg (startIndex binds.length maxExisting) 1
  (processSetExpr cfg params q.body).run ⟨binds, n⟩

theorem processQuery_eq (q : Query) (params : Params) (binds : List FilterValue)
    (maxExisting : ℕ) :
    processQuery cfg q params binds maxExisting =
      (processBody cfg q params binds maxExisting).bind fun r =>
        (limitClauseOf cfg params q.limitClause).map fun clause =>
          ({ q with body := r.1, orderBy := orderByFor params q.orderBy, limitClause := clause },
            r.2.bindValues) := by
  rw [processQuery, processBody]
  cases addU8 cfg (startIndex binds.length maxExisting) 1 with
  | error err => rfl
  | ok n =>
      simp only [Bind.bind, Except.bind]
      cases (processSetExpr cfg params q.body).run ⟨binds, n⟩ with
      | error err => rfl
      | ok r => cases limitClauseOf cfg params q.limitClause <;> rfl

/-- The request replaces the LIMIT clause, or it is the one of the base
query. -/
theorem limitClauseOf_of_processQuery
    (h : processQuery cfg q params binds maxExisting = .ok (q', binds')) :
    limitClauseOf cfg params q.limitClause = .ok q'.limitClause := by
  rw [processQuery_eq] at h
  obtain ⟨r, -, h⟩ := Core.exists_of_bind_eq_ok h
  cases hclause : limitClauseOf cfg params q.limitClause with
  | error err =>
      rw [hclause] at h
      cases h
  | ok clause =>
      rw [hclause] at h
      cases h
      rfl

theorem limitClauseOf_limit {limit : UInt32} (hlimit : params.limit = some limit)
    (existing : Option LimitClause) :
    limitClauseOf cfg params existing =
      (addU32 cfg limit params.limitPlusOne).map fun actual =>
        some (.limitOffset (some (numberExpr actual.toNat)) (offsetExprOf params) []) := by
  simp only [limitClauseOf, limitExprOf, hlimit]
  cases addU32 cfg limit params.limitPlusOne <;> rfl

theorem limitClauseOf_noLimit (hlimit : params.limit = none) (existing : Option LimitClause) :
    limitClauseOf cfg params existing =
      .ok (if params.offset.isSome then some (.limitOffset none (offsetExprOf params) [])
        else existing) := by
  cases hoffset : params.offset <;>
    simp [limitClauseOf, limitExprOf, hlimit, offsetExprOf, hoffset, Bind.bind, Except.bind]

end Dynamic

namespace Paging

open SqlxData.Sqlparser SqlxData.Dynamic

variable {Row : Type} {m : PagedMethod Row} {params : Params} {S : List Row} {limit : UInt32}

/-- The LIMIT of a statement. -/
def limitOf : Option LimitClause → Option ℕ
  | some (.limitOffset limit _ []) => limit.bind literal
  | _ => none

/-- The rows from the offset of the request on. -/
def behindOffset (params : Params) (rows : List Row) : List Row :=
  rows.drop (params.offset.getD 0).toNat

theorem windowOf_limit (params : Params) (count : ℕ) (rows : List Row) :
    windowOf (some (.limitOffset (some (numberExpr count)) (offsetExprOf params) [])) rows =
      (behindOffset params rows).take count := by
  cases hoffset : params.offset <;>
    simp [windowOf, offsetExprOf, behindOffset, hoffset, literal_numberExpr]

theorem windowOf_offset {offset : UInt32} (hoffset : params.offset = some offset)
    (rows : List Row) :
    windowOf (some (.limitOffset none (offsetExprOf params) [])) rows =
      behindOffset params rows := by
  simp [windowOf, offsetExprOf, behindOffset, hoffset, literal_numberExpr]

/-! ### The statement of a request -/

namespace PagedMethod

/-- The base statement is a query, and the conditions of the request can be
added to it. -/
def TakesConditions (m : PagedMethod Row) (params : Params) : Prop :=
  ∃ q, Core.parseSql m.parser m.baseSql = .ok (some (.query q)) ∧
    let base := baseBinds m.baseSql (.query q) params m.initialBinds
    ∃ r, processBody m.cfg q params base.1 (maxPlaceholder base.2) = .ok r

/-- To the statement of the request the database answers with the rows of `S`
that LIMIT and OFFSET name, if the request sets any, and with all of them
otherwise. -/
def Answers (m : PagedMethod Row) (params : Params) (S : List Row) : Prop :=
  ∀ built, m.build params = .ok built →
    if replacesLimit params then
      ∀ q', m.Emits params q' → m.database built.sql built.bindValues = windowOf q'.limitClause S
    else m.database built.sql built.bindValues = S

theorem Emits.exists_limitClause {q' : Query} (hparams : params.isEmpty = false)
    (h : m.Emits params q') : ∃ existing,
      limitClauseOf m.cfg params existing = .ok q'.limitClause := by
  obtain ⟨q, binds, -, hstatement⟩ := h
  obtain ⟨base, maxExisting, -, -, heq⟩ := m.statement_eq hparams q
  rw [heq] at hstatement
  cases hprocess : processQuery m.cfg q params base.1 maxExisting with
  | error err =>
      rw [hprocess] at hstatement
      cases hstatement
  | ok r =>
      rw [hprocess] at hstatement
      cases hstatement
      exact ⟨q.limitClause, limitClauseOf_of_processQuery hprocess⟩

theorem isEmpty_of_limit (hlimit : params.limit = some limit) : params.isEmpty = false := by
  simp [Params.isEmpty, hlimit]

/-- The LIMIT that is written for the limit of a request. -/
theorem Emits.limitClause_eq {q' : Query} (hlimit : params.limit = some limit)
    (h : m.Emits params q') :
    q'.limitClause = some (.limitOffset
      (some (numberExpr (limit + params.limitPlusOne).toNat)) (offsetExprOf params) []) := by
  obtain ⟨existing, hclause⟩ := h.exists_limitClause (isEmpty_of_limit hlimit)
  rw [limitClauseOf_limit hlimit] at hclause
  cases hactual : addU32 m.cfg limit params.limitPlusOne with
  | error err =>
      rw [hactual] at hclause
      cases hclause
  | ok actual =>
      rw [hactual, addU32_eq hactual] at hclause
      exact (Except.ok.inj hclause).symm

/-- The rows that are fetched for it. -/
theorem Answers.fetched_limit (hanswers : m.Answers params S)
    (hlimit : params.limit = some limit) {built : BuiltSql} (hbuilt : m.build params = .ok built) :
    m.database built.sql built.bindValues =
      (behindOffset params S).take (limit + params.limitPlusOne).toNat := by
  obtain ⟨q', hq'⟩ := PagedMethod.exists_emits (isEmpty_of_limit hlimit) hbuilt
  have hdata := hanswers built hbuilt
  rw [if_pos (by simp [replacesLimit, hlimit])] at hdata
  rw [hdata q' hq', hq'.limitClause_eq hlimit, windowOf_limit]

/-- Where the conditions can be added, a statement is built exactly when the
LIMIT can be computed. -/
theorem TakesConditions.build_iff (h : m.TakesConditions params)
    (hlimit : params.limit = some limit) :
    (∃ built, m.build params = .ok built) ↔
      ∃ actual, addU32 m.cfg limit params.limitPlusOne = .ok actual := by
  obtain ⟨q, hparse, r, hbody⟩ := h
  rw [build, buildDynamicSql_of_query hparse (isEmpty_of_limit hlimit) rfl, processQuery_eq, hbody]
  simp only [Except.bind, limitClauseOf_limit hlimit]
  cases addU32 m.cfg limit params.limitPlusOne <;> simp [Except.map]

end PagedMethod

/-! ### One row more than the page -/

theorem hasNext_new (data : List Row) (params : Params) (total : Int64) :
    (Slice.new data params total).hasNext = decide (params.pageSize.toNat < data.length) ∧
      (Slice.new data params total).data = data.take params.pageSize.toNat := by
  simp only [Slice.new, trimToPage_eq]
  split <;> exact ⟨rfl, rfl⟩

theorem hasMore_new {ext : CursorSecureExtract Row} {data : List Row} {cursor : CursorParams}
    {page : CursorPage Row} (hpagination : params.pagination = some (.cursor cursor))
    (h : CursorPage.new ext data params = .ok page) :
    (if isBackward cursor then page.hasPrev else page.hasNext) =
        decide ((CursorPage.pageSize params).toNat < data.length) ∧
      page.data.length = (data.take (CursorPage.pageSize params).toNat).length := by
  have htake : (if decide (data.length > (CursorPage.pageSize params).toNat) = true then
      data.take (CursorPage.pageSize params).toNat else data) =
        data.take (CursorPage.pageSize params).toNat := by
    split
    · rfl
    · rename_i hmore
      rw [List.take_of_length_le (by simpa using hmore)]
  cases hsort : params.sortBy with
  | none =>
      rw [CursorPage.new, hsort] at h
      cases h
  | some sort =>
      simp only [CursorPage.new, hsort, hpagination, htake] at h
      obtain ⟨tokens, -, h⟩ := Core.exists_of_bind_eq_ok h
      cases h
      cases hdirection : isBackward cursor with
      | true =>
          rw [isBackward] at hdirection
          simp [hdirection]
      | false =>
          rw [isBackward] at hdirection
          simp [hdirection]

theorem lt_length_take_succ_iff (n : ℕ) (rows : List Row) :
    n < (rows.take (n + 1)).length ↔ ((rows.take (n + 1)).take n).length < rows.length := by
  rw [take_take_succ, List.length_take, List.length_take]
  omega

/-- The statement asks for one row more than the responses put on a page, and
the page tells whether there are more rows than it shows. -/
structure LookaheadMatches (m : PagedMethod Row) (ext : CursorSecureExtract Row)
    (params : Params) (S : List Row) : Prop where
  built : ∃ built, m.build params = .ok built
  limit : ∀ q', m.Emits params q' →
    limitOf q'.limitClause = some (params.pageSize.toNat + 1) ∧
      limitOf q'.limitClause = some ((CursorPage.pageSize params).toNat + 1)
  slice : ∀ built total, m.build params = .ok built →
    let page := Slice.new (m.database built.sql built.bindValues) params total
    (page.hasNext = true ↔ page.data.length < (behindOffset params S).length)
  cursor : ∀ built page cursor, m.build params = .ok built →
    params.pagination = some (.cursor cursor) →
      CursorPage.new ext (m.database built.sql built.bindValues) params = .ok page →
        ((if isBackward cursor then page.hasPrev else page.hasNext) = true ↔
          page.data.length < (behindOffset params S).length)

/-- The LIMIT of a slice or cursor page agrees with the size of the page, and
its flag with the rows there are, exactly when the limit of the request is
neither 0 nor the greatest number. -/
theorem lookahead_matches_iff {ext : CursorSecureExtract Row}
    (hpagination : (∃ slice, params.pagination = some (.slice slice)) ∨
      ∃ cursor, params.pagination = some (.cursor cursor))
    (hlimit : params.limit = some limit) (hconditions : m.TakesConditions params)
    (hanswers : m.Answers params S) :
    LookaheadMatches m ext params S ↔ 1 ≤ limit.toNat ∧ limit.toNat < 2 ^ 32 - 1 := by
  have hplus : params.limitPlusOne = 1 := by
    rcases hpagination with ⟨slice, h⟩ | ⟨cursor, h⟩ <;> rw [Params.limitPlusOne, h]
  have hsize : params.pageSize.toNat = max limit.toNat 1 := by
    rw [Params.pageSize, hlimit, Option.getD_some, toNat_max_one]
  have hbuilt := hconditions.build_iff hlimit
  rw [hplus] at hbuilt
  have hcount : ∀ q', m.Emits params q' →
      limitOf q'.limitClause = some ((limit.toNat + 1) % 2 ^ 32) := by
    intro q' hemits
    rw [hemits.limitClause_eq hlimit, hplus, limitOf, Option.bind_some, literal_numberExpr,
      UInt32.toNat_add, UInt32.toNat_one]
  constructor
  · intro h
    obtain ⟨built, hb⟩ := h.built
    obtain ⟨q', hq'⟩ := PagedMethod.exists_emits (PagedMethod.isEmpty_of_limit hlimit) hb
    have hsame := (h.limit q' hq').1
    rw [hcount q' hq', Option.some.injEq, hsize] at hsame
    have hlt := limit.toNat_lt
    by_cases hmax : limit.toNat = 2 ^ 32 - 1
    · rw [hmax] at hsame
      omega
    · rw [Nat.mod_eq_of_lt (by omega)] at hsame
      omega
  · rintro ⟨hpos, hlt⟩
    have hmod : (limit.toNat + 1) % 2 ^ 32 = limit.toNat + 1 := Nat.mod_eq_of_lt (by omega)
    have hmax : max limit.toNat 1 = limit.toNat := by omega
    rw [hmax] at hsize
    -- one row more than the page was fetched, if there is one
    have hrows : ∀ built, m.build params = .ok built →
        m.database built.sql built.bindValues =
          (behindOffset params S).take (limit.toNat + 1) := by
      intro built hb
      rw [hanswers.fetched_limit hlimit hb, hplus, UInt32.toNat_add, UInt32.toNat_one, hmod]
    refine ⟨?_, fun q' hq' => ?_, fun built total hb => ?_,
      fun built page cursor hb hcursor hpage => ?_⟩
    · rw [hbuilt, addU32_ok_iff]
      intro _
      rw [UInt32.toNat_one]
      omega
    · have hcursorSize : (CursorPage.pageSize params).toNat = limit.toNat := hsize
      rw [hcount q' hq', hmod, hsize, hcursorSize]
      exact ⟨rfl, rfl⟩
    · obtain ⟨hnext, hdata⟩ := hasNext_new (m.database built.sql built.bindValues) params total
      dsimp only
      rw [hnext, hdata, hsize, hrows built hb, decide_eq_true_iff]
      exact lt_length_take_succ_iff _ _
    · obtain ⟨hnext, hdata⟩ := hasMore_new hcursor hpage
      have hcursorSize : (CursorPage.pageSize params).toNat = limit.toNat := hsize
      rw [hnext, hdata, hcursorSize, hrows built hb, decide_eq_true_iff]
      exact lt_length_take_succ_iff _ _

/-! ### Slices of other requests -/

theorem toNat_asU32 {x : Int64} {n : ℕ} (h : x.toInt = n) :
    x.toUInt64.toUInt32.toNat = n % 2 ^ 32 := by
  have hx : 0 ≤ x := by
    rw [Int64.le_iff_toInt_le, Int64.toInt_zero, h]
    omega
  rw [UInt64.toNat_toUInt32, Int64.toNat_toUInt64_of_le hx, ← Int64.toNat_toInt, h,
    Int.toNat_natCast]

/-- The page an offset is on, cut off to 32 bits. -/
theorem toNat_pageOffset_slice (params : Params) {size : UInt32} (hsize : 1 ≤ size.toNat) :
    (Slice.pageOffset params size).toNat =
      ((params.offset.getD 0).toNat / size.toNat + 1) % 2 ^ 32 := by
  cases hoffset : params.offset with
  | none =>
      rw [Slice.pageOffset, hoffset, Option.bind_none, Option.getD_none, Option.getD_none,
        UInt32.toNat_zero, Nat.zero_div]
      rfl
  | some offset =>
      have hlt := offset.toNat_lt
      have hdiv : offset.toNat / size.toNat ≤ offset.toNat := Nat.div_le_self _ _
      obtain ⟨quotient, hquotient, hvalue⟩ := @toInt_of_checkedDiv (asI64 offset) (asI64 size)
        (by rw [toInt_asI64]; omega) (by rw [toInt_asI64]; omega)
      rw [toInt_asI64, toInt_asI64, ← Int.natCast_ediv] at hvalue
      rw [Option.getD_some]
      generalize offset.toNat / size.toNat = number at hdiv hvalue ⊢
      obtain ⟨sum, hsum, hsumValue⟩ := @toInt_of_checkedAdd quotient 1
        (by rw [hvalue, Int64.toInt_one]; omega) (by rw [hvalue, Int64.toInt_one]; omega)
      rw [hvalue, Int64.toInt_one] at hsumValue
      rw [Slice.pageOffset, hoffset, Option.bind_some, hquotient, Option.bind_some, hsum,
        Option.getD_some]
      exact toNat_asU32 hsumValue

/-- The page of a request shows by its flags what stands around it, and its
number is that of the page the offset is on. -/
structure SliceMatches (params : Params) (page : Slice Row) (S : List Row) : Prop where
  hasNext : page.hasNext = true ↔ (params.offset.getD 0).toNat + page.data.length < S.length
  number : page.page.toNat = (params.offset.getD 0).toNat / page.size.toNat + 1
  hasPrevious : page.hasPrevious = true ↔ 1 < (params.offset.getD 0).toNat / page.size.toNat + 1

theorem new_of_no_slice (hslice : ∀ slice, params.pagination ≠ some (.slice slice))
    (data : List Row) (total : Int64) :
    let page := Slice.new data params total
    page.size = params.pageSize ∧ page.page = Slice.pageOffset params params.pageSize ∧
      page.hasPrevious = decide (1 < page.page) := by
  cases hpagination : params.pagination with
  | none => simp [Slice.new, hpagination]
  | some pagination =>
      cases pagination with
      | slice slice => exact absurd hpagination (hslice slice)
      | serial serial => simp [Slice.new, hpagination]
      | cursor cursor => simp [Slice.new, hpagination]

inductive SliceError
  | sqlx (error : SqlxError)
  | database

/-- The body of a method that returns `Slice`, in front of a server that may
refuse a statement. -/
def PagedMethod.fetchSliceFrom (m : PagedMethod Row)
    (fetchAll : List Char → List FilterValue → Option (List Row)) (params : Params) :
    Except SliceError (Slice Row) := do
  (validateFields params).mapError .sqlx
  let builtSql ← (m.build params).mapError .sqlx
  match fetchAll builtSql.sql builtSql.bindValues with
  | none => .error .database
  | some data =>
      let totalElements ←
        (if !params.isDisableTotalCount then m.totalElements builtSql.sql builtSql.bindValues
          else .ok 0).mapError .sqlx
      .ok (Slice.new data params totalElements)

/-- Only PostgreSQL has an OFFSET without a LIMIT. -/
def takesClause (backend : Backend) : Option LimitClause → Bool
  | some (.limitOffset none (some _) _) => decide (backend = .postgres)
  | _ => true

/-- The server answers to the statement of a request with the rows of `S` that
LIMIT and OFFSET name, as far as it has such clauses, and with all rows if the
request sets none. -/
def PagedMethod.Serves (m : PagedMethod Row)
    (fetchAll : List Char → List FilterValue → Option (List Row)) (params : Params)
    (S : List Row) : Prop :=
  ∀ built, m.build params = .ok built →
    if replacesLimit params then
      ∀ q', m.Emits params q' → fetchAll built.sql built.bindValues =
        if takesClause m.cfg.backend q'.limitClause then some (windowOf q'.limitClause S) else none
    else fetchAll built.sql built.bindValues = some S

/-- The request has no OFFSET without a LIMIT, or PostgreSQL reads it. -/
def TakesOffset (backend : Backend) (params : Params) : Prop :=
  params.offset.isSome → params.limit.isSome ∨ backend = .postgres

/-- The rows of a request without a pagination that looks ahead: as many as its
limit says. -/
def requestedRows (params : Params) (S : List Row) : List Row :=
  params.limit.elim (behindOffset params S) fun limit => (behindOffset params S).take limit.toNat

/-- What is fetched for it, unless the server has no such statement. -/
theorem PagedMethod.Serves.fetched {fetchAll : List Char → List FilterValue → Option (List Row)}
    (hserves : m.Serves fetchAll params S) (hplus : params.limitPlusOne = 0) {built : BuiltSql}
    (hbuilt : m.build params = .ok built) :
    (TakesOffset m.cfg.backend params →
      fetchAll built.sql built.bindValues = some (requestedRows params S)) ∧
    (¬TakesOffset m.cfg.backend params → fetchAll built.sql built.bindValues = none) := by
  have hdata := hserves built hbuilt
  cases hlimit : params.limit with
  | some limit =>
      have htakes : TakesOffset m.cfg.backend params := fun _ => .inl (by rw [hlimit]; rfl)
      refine ⟨fun _ => ?_, fun h => absurd htakes h⟩
      obtain ⟨q', hq'⟩ := PagedMethod.exists_emits (PagedMethod.isEmpty_of_limit hlimit) hbuilt
      rw [if_pos (by simp [replacesLimit, hlimit])] at hdata
      rw [hdata q' hq', hq'.limitClause_eq hlimit, hplus, UInt32.add_zero, windowOf_limit,
        requestedRows, hlimit]
      rfl
  | none =>
      cases hoffset : params.offset with
      | some offset =>
          have hnonEmpty : params.isEmpty = false := by simp [Params.isEmpty, hoffset]
          rw [if_pos (by simp [replacesLimit, hoffset])] at hdata
          obtain ⟨q', hq'⟩ := PagedMethod.exists_emits hnonEmpty hbuilt
          obtain ⟨existing, hclause⟩ := hq'.exists_limitClause hnonEmpty
          rw [limitClauseOf_noLimit hlimit, hoffset, Option.isSome_some, if_pos rfl] at hclause
          have htakes : TakesOffset m.cfg.backend params ↔ m.cfg.backend = .postgres := by
            simp [TakesOffset, hoffset, hlimit]
          have hoffsetExpr : ∃ e, offsetExprOf params = some e := by simp [offsetExprOf, hoffset]
          obtain ⟨e, he⟩ := hoffsetExpr
          have hrows := windowOf_offset hoffset S
          rw [hdata q' hq', ← Except.ok.inj hclause, htakes, hrows, he, requestedRows, hlimit]
          refine ⟨fun hpostgres => ?_, fun hother => ?_⟩
          · simp [takesClause, hpostgres]
          · simp [takesClause, hother]
      | none =>
          have htakes : TakesOffset m.cfg.backend params := by simp [TakesOffset, hoffset]
          refine ⟨fun _ => ?_, fun h => absurd htakes h⟩
          rw [if_neg (by simp [replacesLimit, hlimit, hoffset])] at hdata
          rw [hdata]
          simp [requestedRows, hlimit, behindOffset, hoffset]

/-- The slice of these rows is right exactly when no rows are behind the limit of
the request and its page number has 32 bits. -/
theorem sliceMatches_new_iff (hslice : ∀ slice, params.pagination ≠ some (.slice slice))
    (total : Int64) :
    SliceMatches params (Slice.new (requestedRows params S) params total) S ↔
      (∀ limit ∈ params.limit, S.length ≤ (params.offset.getD 0).toNat + limit.toNat) ∧
        (params.offset.getD 0).toNat / params.pageSize.toNat + 1 < 2 ^ 32 := by
  have hsize : 1 ≤ params.pageSize.toNat := by
    rw [Params.pageSize, toNat_max_one]
    omega
  obtain ⟨hnext, hdata⟩ := hasNext_new (requestedRows params S) params total
  obtain ⟨hpageSize, hnumber, hprevious⟩ := new_of_no_slice hslice (requestedRows params S) total
  have hpageNumber := toNat_pageOffset_slice params hsize
  rw [← hnumber] at hpageNumber
  -- the flag for a next page is right when no row is behind those that were fetched
  have hflag : ((Slice.new (requestedRows params S) params total).hasNext = true ↔
      (params.offset.getD 0).toNat +
        (Slice.new (requestedRows params S) params total).data.length < S.length) ↔
      ∀ limit ∈ params.limit, S.length ≤ (params.offset.getD 0).toNat + limit.toNat := by
    rw [hnext, hdata, requestedRows, decide_eq_true_iff]
    cases hlimit : params.limit with
    | none =>
        simp only [Option.elim_none, Option.mem_def, reduceCtorEq, false_imp_iff, implies_true,
          iff_true, behindOffset, List.length_take, List.length_drop]
        omega
    | some limit =>
        have hlimitSize : params.pageSize.toNat = max limit.toNat 1 := by
          rw [Params.pageSize, hlimit, Option.getD_some, toNat_max_one]
        simp only [Option.elim_some, Option.mem_def, Option.some.injEq, forall_eq', behindOffset,
          List.length_take, List.length_drop, hlimitSize]
        omega
  constructor
  · rintro ⟨hhasNext, hpageNumber', -⟩
    refine ⟨hflag.mp hhasNext, ?_⟩
    rw [hpageSize, hpageNumber] at hpageNumber'
    rw [← hpageNumber']
    exact Nat.mod_lt _ (by decide)
  · rintro ⟨hlimits, hfits⟩
    rw [Nat.mod_eq_of_lt hfits] at hpageNumber
    refine ⟨hflag.mpr hlimits, by rw [hpageSize, hpageNumber], ?_⟩
    rw [hpageSize, hprevious, decide_eq_true_iff, UInt32.lt_iff_toNat_lt, hpageNumber,
      UInt32.toNat_one]

/-- A request without slice or cursor pagination, whose statement is built and
whose rows can be counted, gets a right slice exactly when the server has its
OFFSET, no rows are behind its limit and its page number has 32 bits. -/
theorem slice_matches_iff (hslice : ∀ slice, params.pagination ≠ some (.slice slice))
    (hcursor : ∀ cursor, params.pagination ≠ some (.cursor cursor))
    {fetchAll : List Char → List FilterValue → Option (List Row)}
    (hserves : m.Serves fetchAll params S) (hvalid : validateFields params = .ok ())
    (hbuilds : ∃ built, m.build params = .ok built)
    (htotal : ∀ sql args, ∃ total, m.totalElements sql args = .ok total) :
    (∃ page, m.fetchSliceFrom fetchAll params = .ok page ∧ SliceMatches params page S) ↔
      TakesOffset m.cfg.backend params ∧
      (∀ limit ∈ params.limit, S.length ≤ (params.offset.getD 0).toNat + limit.toNat) ∧
        (params.offset.getD 0).toNat / params.pageSize.toNat + 1 < 2 ^ 32 := by
  have hplus : params.limitPlusOne = 0 := by
    rw [Params.limitPlusOne]
    split
    · rename_i slice h
      exact absurd h (hslice slice)
    · rename_i cursor h
      exact absurd h (hcursor cursor)
    · rfl
    · rfl
  obtain ⟨built, hbuilt⟩ := hbuilds
  obtain ⟨hrows, hrefused⟩ := hserves.fetched hplus hbuilt
  by_cases htakes : TakesOffset m.cfg.backend params
  · obtain ⟨total, hcount⟩ := htotal built.sql built.bindValues
    obtain ⟨total', hpage⟩ : ∃ total', m.fetchSliceFrom fetchAll params =
        .ok (Slice.new (requestedRows params S) params total') := by
      simp only [PagedMethod.fetchSliceFrom, hvalid, hbuilt, hrows htakes, hcount,
        Except.mapError, Bind.bind, Except.bind]
      cases params.isDisableTotalCount
      · exact ⟨total, rfl⟩
      · exact ⟨0, rfl⟩
    rw [and_iff_right htakes, ← sliceMatches_new_iff hslice total', hpage]
    constructor
    · rintro ⟨page, hsame, hmatches⟩
      obtain rfl := Except.ok.inj hsame
      exact hmatches
    · intro hmatches
      exact ⟨_, rfl, hmatches⟩
  · have herror : m.fetchSliceFrom fetchAll params = .error .database := by
      simp only [PagedMethod.fetchSliceFrom, hvalid, hbuilt, hrefused htakes, Except.mapError,
        Bind.bind, Except.bind]
    refine iff_of_false ?_ fun h => htakes h.1
    rintro ⟨page, hpage, -⟩
    rw [herror] at hpage
    cases hpage

/-! ### Four rows, once more -/

namespace LookaheadExample

open OffsetExample Reference

/-- Rows without tokens. -/
def noTokens : CursorSecureExtract ℕ where
  extractWhitelistedFields _ _ := .error .emptyData
  encode _ := .error .emptyData
  decode _ := .error .emptyData

/-- `limit(3).offset(offset)` -/
def threeFrom (offset : UInt32) : Params := ParamsBuilder.build [.limit 3, .offset offset]

theorem answers_listUsers {params : Params} {offset : UInt32}
    (hreplaces : replacesLimit params = true)
    (hbase : baseBinds (text users) (.query users) params [] = ([], []))
    (h : dynamicStatement listUsers.cfg (.query users) params [] 0 =
      .ok (.query (windowQuery offset), [])) :
    listUsers.build params = .ok ⟨windowText offset, []⟩ ∧
      listUsers.Answers params [1, 2, 3, 4] := by
  obtain ⟨hbuild, hanswers⟩ := @listUsers_answers (fun _ => params) (fun _ => offset)
    (fun _ => hbase) (fun _ => h)
  refine ⟨hbuild 0, fun built hbuilt => ?_⟩
  rw [if_pos hreplaces]
  exact fun q' hq' => hanswers 0 q' built hq' hbuilt

end LookaheadExample

open OffsetExample LookaheadExample Reference

/-- Slices of two rows. -/
theorem lookahead_matches_two :
    LookaheadMatches listUsers noTokens (slicePage .default 2 1) [1, 2, 3, 4] :=
  (lookahead_matches_iff (.inl ⟨_, rfl⟩) rfl ⟨users, rfl, _, rfl⟩
    (@answers_listUsers (slicePage .default 2 1) 0 rfl rfl rfl).2).mpr ⟨by decide, by decide⟩

/-- With the limit 0 the statement asks for one row and the page is of one row;
the greatest limit overflows. -/
theorem lookahead_mismatched :
    ¬LookaheadMatches listUsers noTokens (ParamsBuilder.build [.slice [], .limit 0])
        [1, 2, 3, 4] ∧
      ¬LookaheadMatches listUsers noTokens (ParamsBuilder.build [.slice [], .limit 0xFFFFFFFF])
        [1, 2, 3, 4] := by
  constructor
  · intro h
    have hemits : listUsers.Emits (ParamsBuilder.build [.slice [], .limit 0])
        { users with limitClause := some (windowClause 1 0) } := ⟨users, [], rfl, rfl⟩
    have hlimit := (h.limit _ hemits).1
    rw [windowClause, limitOf, Option.bind_some, literal_numberExpr] at hlimit
    exact absurd hlimit (by decide)
  · intro h
    obtain ⟨built, hbuilt⟩ := h.built
    have herror : listUsers.build (ParamsBuilder.build [.slice [], .limit 0xFFFFFFFF]) =
        .error overflow := rfl
    rw [herror] at hbuilt
    cases hbuilt

/-- The three rows behind the first one. -/
theorem slice_matches_last_three :
    ∃ page, listUsers.fetchSliceFrom (fun sql args => some (listUsers.database sql args))
        (threeFrom 1) = .ok page ∧ SliceMatches (threeFrom 1) page [1, 2, 3, 4] := by
  obtain ⟨hbuild, hanswers⟩ := @answers_listUsers (threeFrom 1) 1 rfl rfl rfl
  refine (slice_matches_iff ?_ ?_ ?_ rfl ⟨_, hbuild⟩ fun _ _ => ⟨4, rfl⟩).mpr
    ⟨fun _ => .inl rfl, ?_, by decide⟩
  · rintro slice ⟨⟩
  · rintro cursor ⟨⟩
  · intro built hbuilt
    have hrows := hanswers built hbuilt
    rw [if_pos (by rfl)] at hrows ⊢
    intro q' hq'
    show some (listUsers.database built.sql built.bindValues) = _
    have hlimit : (threeFrom 1).limit = some 3 := rfl
    rw [hrows q' hq', hq'.limitClause_eq hlimit]
    rfl
  · rintro limit ⟨⟩
    decide

/-- The first three of four rows are said to be the last ones, the page of the
greatest offset gets the number 0, and SQLite has no OFFSET without LIMIT. -/
theorem slice_mismatched :
    (∃ page, listUsers.fetchSliceFrom (fun sql args => some (listUsers.database sql args))
        (threeFrom 0) = .ok page ∧ ¬SliceMatches (threeFrom 0) page [1, 2, 3, 4]) ∧
    (∃ page, listUsers.fetchSliceFrom (fun _ _ => some [])
        (ParamsBuilder.build [.limit 1, .offset 0xFFFFFFFF]) = .ok page ∧
      ¬SliceMatches (ParamsBuilder.build [.limit 1, .offset 0xFFFFFFFF]) page [1, 2, 3, 4]) ∧
    let sqliteUsers := { listUsers with cfg := Dynamic.Example.build .sqlite }
    sqliteUsers.Serves (fun _ _ => none) (ParamsBuilder.build [.offset 5]) [1, 2, 3, 4] ∧
      sqliteUsers.fetchSliceFrom (fun _ _ => none) (ParamsBuilder.build [.offset 5]) =
        .error .database := by
  refine ⟨?_, ?_, ?_, rfl⟩
  · obtain ⟨hbuild, -⟩ := @answers_listUsers (threeFrom 0) 0 rfl rfl rfl
    refine ⟨Slice.new [1, 2, 3] (threeFrom 0) 4, ?_, fun h => ?_⟩
    · simp only [PagedMethod.fetchSliceFrom, hbuild]
      rfl
    · exact absurd h.hasNext (by decide)
  · refine ⟨_, rfl, fun h => ?_⟩
    exact absurd h.number (by decide)
  · intro built hbuilt
    rw [if_pos (by rfl)]
    intro q' hq'
    obtain ⟨existing, hclause⟩ := hq'.exists_limitClause rfl
    rw [limitClauseOf_noLimit rfl] at hclause
    rw [← Except.ok.inj hclause]
    rfl

end Paging

end SqlxData
