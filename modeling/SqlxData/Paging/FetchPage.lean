import SqlxData.Dynamic.Validation
import SqlxData.Paging.Table

/-!
One call of a paged method: the request is validated, the statement is built
and sent to the database, and the rows that come back become a cursor page.
The assumptions under which pages are followed are those of `Pageable`.
-/

namespace SqlxData

namespace Paging

open SqlxData.Sqlparser SqlxData.Dynamic

/-! ### A paged method -/

inductive FetchError
  | sqlx (error : SqlxError)
  | decode (error : CursorError)

/-- A generated method that returns cursor pages, with the build it is part of
and the database it talks to. -/
structure Method (Row : Type) where
  cfg : Config
  display : Display
  parser : Core.Parser
  baseSql : List Char
  ext : CursorSecureExtract Row
  errorText : CursorError → String
  database : List Char → List FilterValue → List Row

variable {Row V : Type}

/-- The body the macro generates. -/
def Method.fetch (m : Method Row) (params : Params) : Except FetchError (CursorPage Row) := do
  (validateFields params).mapError .sqlx
  let builtSql ← (buildDynamicSql m.cfg m.display m.parser m.baseSql params []).mapError .sqlx
  let data := m.database builtSql.sql builtSql.bindValues
  (CursorPage.new m.ext data params).mapError .decode

/-- The whitelist returns the named fields in order, decoding undoes encoding,
and a decoded value is bound as the value of its column. -/
structure ExactCursor (ext : CursorSecureExtract Row) (t : Table Row V) (sorts : List SortField)
    (cursorField : Row → String → CursorValue) (toFilter : CursorValue → FilterValue) : Prop where
  extract : ∀ r ∈ t.rows, ext.extractWhitelistedFields r (sorts.map (·.field)) =
    .ok (sorts.map fun s => cursorField r s.field)
  roundTrip : ∀ r ∈ t.rows,
    let cursor := CursorData.newMulti (sorts.map fun s => ⟨cursorField r s.field⟩)
    ∃ token, ext.encode cursor = .ok token ∧
      ext.decode token = .ok (cursor.entries.map fun e => toFilter e.value)
  bound : ∀ r ∈ t.rows, ∀ s ∈ sorts, t.bound (toFilter (cursorField r s.field)) = t.column r s.field

/-- The token decodes to the sort values of the row. -/
def StandsFor (ext : CursorSecureExtract Row) (t : Table Row V) (sorts : List SortField)
    (token : String) (r : Row) : Prop :=
  ∃ values, ext.decode token = .ok values ∧
    values.map t.bound = sorts.map fun s => t.column r s.field

/-! ### Tokens -/

/-- Every row has a token, related to the row by `R`. -/
def HasTokens (ext : CursorSecureExtract Row) (rows : List Row) (sorts : List SortField)
    (R : String → Row → Prop) : Prop :=
  ∀ r ∈ rows, ∃ values token,
    ext.extractWhitelistedFields r (sorts.map (·.field)) = .ok values ∧
      values.length = sorts.length ∧
      ext.encode (CursorData.newMulti (values.map CursorEntry.mk)) = .ok token ∧ R token r

section Tokens

variable {ext : CursorSecureExtract Row} {t : Table Row V} {sorting : SortingParams}
  {cursorField : Row → String → CursorValue} {toFilter : CursorValue → FilterValue}
  {rows : List Row} {R : String → Row → Prop}

theorem ExactCursor.hasTokens {sorts : List SortField}
    (h : ExactCursor ext t sorts cursorField toFilter) :
    HasTokens ext t.rows sorts (StandsFor ext t sorts) := by
  intro r hr
  obtain ⟨token, hencode, hdecode⟩ := h.roundTrip r hr
  refine ⟨_, token, h.extract r hr, by simp, ?_, _, hdecode, ?_⟩
  · rw [List.map_map]
    exact hencode
  · simp only [CursorData.newMulti, List.map_map]
    exact List.map_congr_left fun s hs => h.bound r hr s hs

theorem HasTokens.token (h : HasTokens ext rows sorting.sorts R) (hsorts : sorting.sorts ≠ [])
    {data : List Row} (getItem : List Row → Option Row) {r : Row} (hr : r ∈ rows)
    (hitem : getItem data = some r) (hdata : data ≠ []) :
    ∃ token, (CursorParams.generateCursor ext data true sorting getItem >>=
        CursorParams.encodeCursor ext) = .ok (some token) ∧ R token r := by
  obtain ⟨values, token, hextract, hlength, hencode, hrow⟩ := h r hr
  refine ⟨token, ?_, hrow⟩
  have hnonempty : (!true || data.isEmpty) = false := by
    cases data with
    | nil => exact absurd rfl hdata
    | cons => rfl
  have hfields : (sorting.sorts.map (·.field)).isEmpty = false := by
    cases hcase : sorting.sorts with
    | nil => exact absurd hcase hsorts
    | cons => rfl
  have hmatch : ¬values.length ≠ (sorting.sorts.map (·.field)).length := by simp [hlength]
  have hgenerate : CursorParams.generateCursor ext data true sorting getItem =
      .ok (some (CursorData.newMulti (values.map CursorEntry.mk))) := by
    simp only [CursorParams.generateCursor, hnonempty, hfields, hitem, hextract,
      Bool.false_eq_true, if_false, Bind.bind, Except.bind, if_neg hmatch]
  rw [hgenerate]
  simp only [Bind.bind, Except.bind, CursorParams.encodeCursor, hencode]
  rfl

theorem HasTokens.generateCursors (h : HasTokens ext rows sorting.sorts R)
    (hsorts : sorting.sorts ≠ []) {data : List Row} (hdata : ∀ r ∈ data, r ∈ rows)
    (hasMore hadPrev : Bool) :
    ∃ next prev, CursorPage.generateCursors ext data hasMore hadPrev sorting = .ok (next, prev) ∧
      Option.Rel R next (if hasMore then data.getLast? else none) ∧
      Option.Rel R prev (if hadPrev then data.head? else none) := by
  by_cases hempty : data = []
  · subst hempty
    refine ⟨none, none, rfl, ?_, ?_⟩
    · split <;> exact .none
    · split <;> exact .none
  have hnonempty : data.isEmpty = false := by simpa using hempty
  have hlast := List.getLast?_eq_some_getLast hempty
  have hhead := List.head?_eq_some_head hempty
  obtain ⟨next, hnext, hnextRow⟩ :=
    h.token hsorts List.getLast? (hdata _ (List.getLast_mem hempty)) hlast hempty
  obtain ⟨prev, hprev, hprevRow⟩ :=
    h.token hsorts List.head? (hdata _ (List.head_mem hempty)) hhead hempty
  have hnextToken : CursorParams.generateNextCursor ext data true sorting = .ok (some next) := hnext
  have hprevToken : CursorParams.generatePrevCursor ext data true sorting = .ok (some prev) := hprev
  refine ⟨if hasMore then some next else none, if hadPrev then some prev else none, ?_, ?_, ?_⟩
  · cases hasMore <;> cases hadPrev <;>
      simp [CursorPage.generateCursors, hnonempty, hnextToken, hprevToken, Bind.bind, Except.bind]
  · cases hasMore with
    | true =>
        rw [if_pos rfl, if_pos rfl, hlast]
        exact .some hnextRow
    | false => exact .none
  · cases hadPrev with
    | true =>
        rw [if_pos rfl, if_pos rfl, hhead]
        exact .some hprevRow
    | false => exact .none

end Tokens

/-! ### New pages -/

section Pages

variable {m : Method Row} {t : Table Row V} {sorting : SortingParams} {limit : UInt32}
  {cursor : CursorParams}

def isBackward (cursor : CursorParams) : Bool := cursor.direction = some .before

/-- The page made of the fetched rows, with a row for each of its tokens. -/
structure NewPage (m : Method Row) (t : Table Row V) (sorts : List SortField) (limit : ℕ)
    (cursor : CursorParams) (fetched : List Row) (page : CursorPage Row) : Prop where
  data : page.data = if isBackward cursor then (fetched.take limit).reverse else fetched.take limit
  hasNext : page.hasNext =
    if isBackward cursor then !cursor.isEmpty else decide (limit < fetched.length)
  hasPrev : page.hasPrev =
    if isBackward cursor then decide (limit < fetched.length) else !cursor.isEmpty
  next : Option.Rel (StandsFor m.ext t sorts) page.nextCursor
    (if limit < fetched.length then (fetched.take limit).getLast? else none)
  prev : Option.Rel (StandsFor m.ext t sorts) page.prevCursor
    (if cursor.isEmpty then none else (fetched.take limit).head?)

theorem pageSize_pageRequest (hlimit : 1 ≤ limit.toNat) :
    CursorPage.pageSize (pageRequest sorting limit cursor) = limit := by
  show (if limit ≤ 1 then 1 else limit) = limit
  split
  · rename_i hle
    rw [UInt32.le_iff_toNat_le, UInt32.toNat_one] at hle
    apply UInt32.toNat_inj.mp
    rw [UInt32.toNat_one]
    omega
  · rfl

/-- The rows beyond a page are cut off. -/
theorem kept_eq_take (data : List Row) (n : ℕ) :
    (if decide (data.length > n) = true then data.take n else data) = data.take n := by
  split
  · rfl
  · rename_i hmore
    exact (List.take_of_length_le (by simpa using hmore)).symm

theorem HasTokens.newPage {rows : List Row} {R : String → Row → Prop}
    (h : HasTokens m.ext rows sorting.sorts R) (hsorts : sorting.sorts ≠ [])
    (hlimit : 1 ≤ limit.toNat) {fetched : List Row} (hfetched : ∀ r ∈ fetched, r ∈ rows) :
    ∃ next prev, CursorPage.new m.ext fetched (pageRequest sorting limit cursor) = .ok
        ⟨if isBackward cursor then (fetched.take limit.toNat).reverse else fetched.take limit.toNat,
          limit,
          if isBackward cursor then !cursor.isEmpty else decide (limit.toNat < fetched.length),
          if isBackward cursor then decide (limit.toNat < fetched.length) else !cursor.isEmpty,
          next, prev⟩ ∧
      Option.Rel R next
        (if limit.toNat < fetched.length then (fetched.take limit.toNat).getLast? else none) ∧
      Option.Rel R prev (if cursor.isEmpty then none else (fetched.take limit.toNat).head?) := by
  have hkept := kept_eq_take fetched limit.toNat
  have hrows : ∀ r ∈ fetched.take limit.toNat, r ∈ rows := fun r hr =>
    hfetched r (List.mem_of_mem_take hr)
  obtain ⟨next, prev, hcursors, hnext, hprev⟩ := h.generateCursors hsorts hrows
    (decide (fetched.length > limit.toNat)) (!cursor.isEmpty)
  refine ⟨next, prev, ?_, by simpa using hnext, ?_⟩
  · have hsize := @pageSize_pageRequest sorting limit cursor hlimit
    simp only [CursorPage.new, hsize]
    simp only [pageRequest, hkept, hcursors, Bind.bind, Except.bind]
    rfl
  · cases hcase : cursor.isEmpty <;> simpa [hcase] using hprev

theorem ExactCursor.newPage {cursorField : Row → String → CursorValue}
    {toFilter : CursorValue → FilterValue}
    (h : ExactCursor m.ext t sorting.sorts cursorField toFilter) (hsorts : sorting.sorts ≠ [])
    (hlimit : 1 ≤ limit.toNat) {fetched : List Row} (hfetched : ∀ r ∈ fetched, r ∈ t.rows) :
    ∃ page, CursorPage.new m.ext fetched (pageRequest sorting limit cursor) = .ok page ∧
      NewPage m t sorting.sorts limit.toNat cursor fetched page := by
  obtain ⟨next, prev, hnew, hnext, hprev⟩ :=
    @HasTokens.newPage _ m sorting limit cursor _ _ h.hasTokens hsorts hlimit _ hfetched
  exact ⟨_, hnew, ⟨rfl, rfl, rfl, hnext, hprev⟩⟩

/-- The page holds the rows between `pre` and `post` of the sorted table, and
its flags and tokens say what stands around it. -/
structure Shows (m : Method Row) (t : Table Row V) (sorts : List SortField)
    (pre : List Row) (page : CursorPage Row) (post : List Row) : Prop where
  hasNext : page.hasNext = !post.isEmpty
  hasPrev : page.hasPrev = !pre.isEmpty
  next : Option.Rel (StandsFor m.ext t sorts) page.nextCursor
    (if post.isEmpty then none else page.data.getLast?)
  prev : Option.Rel (StandsFor m.ext t sorts) page.prevCursor
    (if pre.isEmpty then none else page.data.head?)

section Shows

variable {sorts : List SortField} {page : CursorPage Row} {pre post init rest : List Row} {x : Row}

theorem eq_none_of_rel {α β : Type} {R : α → β → Prop} {a : Option α} (h : Option.Rel R a none) :
    a = none := by
  cases h
  rfl

theorem exists_of_rel {α β : Type} {R : α → β → Prop} {a : Option α} {b : β}
    (h : Option.Rel R a (some b)) : ∃ a', a = some a' ∧ R a' b := by
  cases h with
  | some hab => exact ⟨_, rfl, hab⟩

theorem Shows.nextCursor_eq_none (h : Shows m t sorts pre page []) : page.nextCursor = none :=
  eq_none_of_rel h.next

theorem Shows.prevCursor_eq_none (h : Shows m t sorts [] page post) : page.prevCursor = none :=
  eq_none_of_rel h.prev

theorem Shows.exists_nextCursor (h : Shows m t sorts pre page post) (hpost : post ≠ [])
    (hdata : page.data = init ++ [x]) :
    ∃ token, page.nextCursor = some token ∧ StandsFor m.ext t sorts token x := by
  have hrel := h.next
  rw [if_neg (by simpa using hpost), hdata, List.getLast?_concat] at hrel
  exact exists_of_rel hrel

theorem Shows.exists_prevCursor (h : Shows m t sorts pre page post) (hpre : pre ≠ [])
    (hdata : page.data = x :: rest) :
    ∃ token, page.prevCursor = some token ∧ StandsFor m.ext t sorts token x := by
  have hrel := h.prev
  rw [if_neg (by simpa using hpre), hdata, List.head?_cons] at hrel
  exact exists_of_rel hrel

end Shows

theorem take_take_succ (rest : List Row) (n : ℕ) : (rest.take (n + 1)).take n = rest.take n := by
  rw [List.take_take, min_eq_left (Nat.le_succ n)]

/-- One more row was fetched exactly when rows are left behind the page. -/
theorem lt_length_take_succ (rest : List Row) (n : ℕ) :
    n < (rest.take (n + 1)).length ↔ (rest.drop n).isEmpty = false := by
  rw [List.length_take, List.isEmpty_eq_false_iff, ← List.length_pos_iff, List.length_drop]
  omega

/-- A page fetched forwards. -/
theorem NewPage.forward {sorts : List SortField} {n : ℕ} {rest pre : List Row}
    {page : CursorPage Row} (h : NewPage m t sorts n cursor (rest.take (n + 1)) page)
    (hdirection : isBackward cursor = false) (hpre : cursor.isEmpty = pre.isEmpty) :
    page.data = rest.take n ∧ Shows m t sorts pre page (rest.drop n) := by
  obtain ⟨hdata, hasNext, hasPrev, hnext, hprev⟩ := h
  simp only [hdirection, Bool.false_eq_true, if_false, take_take_succ, lt_length_take_succ]
    at hdata hasNext hasPrev hnext hprev
  refine ⟨hdata, by rw [hasNext]; cases (rest.drop n).isEmpty <;> rfl, by rw [hasPrev, hpre], ?_, ?_⟩
  · rw [hdata]
    cases hcase : (rest.drop n).isEmpty <;> simpa [hcase] using hnext
  · rw [hdata, ← hpre]
    exact hprev

/-- A page fetched backwards holds the right rows. -/
theorem NewPage.backward_data {sorts : List SortField} {n : ℕ} {pre : List Row}
    {page : CursorPage Row} (h : NewPage m t sorts n cursor (pre.reverse.take (n + 1)) page)
    (hdirection : isBackward cursor = true) : page.data = pre.drop (pre.length - n) := by
  rw [h.data, if_pos hdirection, take_take_succ, List.take_reverse, List.reverse_reverse]

/-- With one row on the page and more rows ahead of it, its flags and tokens are
right as well: the row is the first and the last of the fetch. -/
theorem NewPage.backward_one {sorts : List SortField} {pre post : List Row}
    {page : CursorPage Row} (h : NewPage m t sorts 1 cursor (pre.reverse.take 2) page)
    (hdirection : isBackward cursor = true) (hcursor : cursor.isEmpty = false)
    (hpre : 2 ≤ pre.length) (hpost : post ≠ []) : Shows m t sorts pre.dropLast page post := by
  obtain ⟨l, z, rfl⟩ := List.eq_nil_or_concat' pre |>.resolve_left (by rintro rfl; simp at hpre)
  obtain ⟨init, y, rfl⟩ := List.eq_nil_or_concat' l |>.resolve_left (by rintro rfl; simp at hpre)
  obtain ⟨hdata, hasNext, hasPrev, hnext, hprev⟩ := h
  simp [hdirection, hcursor] at hdata hasNext hasPrev hnext hprev
  refine ⟨?_, ?_, ?_, ?_⟩
  · simpa [hasNext] using hpost
  · simp [hasPrev]
  · simpa [hdata, hpost] using hnext
  · simpa [hdata] using hprev

/-- A page fetched backwards has a `next_cursor` only when rows are left ahead
of it; it stands for the first row of the page. -/
theorem NewPage.backward_next {sorts : List SortField} {n : ℕ} {pre rest : List Row} {x : Row}
    {page : CursorPage Row} {token : String}
    (h : NewPage m t sorts n cursor (pre.reverse.take (n + 1)) page)
    (hdirection : isBackward cursor = true) (hdata : page.data = x :: rest)
    (htoken : page.nextCursor = some token) :
    n < pre.length ∧ StandsFor m.ext t sorts token x := by
  have hfetched : (pre.reverse.take n).reverse = x :: rest := by
    rw [← hdata, h.data, if_pos hdirection, take_take_succ]
  have hlast : (pre.reverse.take n).getLast? = some x := by
    rw [← List.reverse_reverse (pre.reverse.take n), hfetched]
    simp
  have hrel := h.next
  rw [htoken, take_take_succ, hlast] at hrel
  split at hrel
  · rename_i hmore
    rw [List.length_take, List.length_reverse] at hmore
    obtain ⟨_, hsame, hrow⟩ := exists_of_rel hrel
    obtain rfl := Option.some.inj hsame
    exact ⟨by omega, hrow⟩
  · cases hrel

theorem nextCursor_of_standsFor {token : String} {x : Row}
    (htoken : StandsFor m.ext t sorting.sorts token x) :
    ∃ values, CursorParams.nextCursor m.ext m.errorText token = .fromValues values .after ∧
      CursorParams.prevCursor m.ext m.errorText token = .fromValues values .before ∧
      values.map t.bound = sorting.sorts.map fun s => t.column x s.field := by
  obtain ⟨values, hdecode, hvalues⟩ := htoken
  refine ⟨values, ?_, ?_, hvalues⟩
  · rw [CursorParams.nextCursor, CursorParams.decoded, hdecode]
  · rw [CursorParams.prevCursor, CursorParams.decoded, hdecode]

end Pages

/-! ### Fetching from a table -/

section Fetching

variable [LinearOrder V]

/-- The method pages through a table: a `$n` build, a base SELECT without WHERE
and without placeholders, a valid list of at most ten plain sort columns that
tell the rows apart, a limit that leaves room for one more row, exact tokens,
and a database that answers the emitted statements by the definition of SQL. -/
structure Pageable (m : Method Row) (t : Table Row V) (sorting : SortingParams) (limit : UInt32)
    (q : Query) (s : Select) : Prop where
  backend : m.cfg.backend ≠ .mysql
  base : BaseSelect m.display m.parser m.baseSql q s
  sorts : sorting.sorts ≠ []
  count : sorting.sorts.length ≤ maxCursorFields
  fields : PlainFields sorting.sorts
  valid : sorting.validateFields = .ok ()
  limit_pos : 1 ≤ limit.toNat
  limit_lt : limit.toNat + 1 < 2 ^ 32
  keyed : t.Keyed (sortKeys sorting.sorts false)
  exact : ∃ cursorField toFilter, ExactCursor m.ext t sorting.sorts cursorField toFilter
  answers : ∀ cursor q' binds, PageCursor sorting.sorts.length cursor →
    dynamicStatement m.cfg (.query q) (pageRequest sorting limit cursor) [] 0 =
      .ok (.query q', binds) →
    t.Answers q' binds (m.database (render (m.display.query q')) binds)

/-- The requests for pages are valid and the builder answers them with page
statements. -/
structure PageRequests (m : Method Row) (sorting : SortingParams) (limit : UInt32) (q : Query)
    (s : Select) : Prop where
  backend : m.cfg.backend ≠ .mysql
  base : BaseSelect m.display m.parser m.baseSql q s
  sorts : sorting.sorts ≠ []
  count : sorting.sorts.length ≤ maxCursorFields
  fields : PlainFields sorting.sorts
  valid : sorting.validateFields = .ok ()
  limit_pos : 1 ≤ limit.toNat
  limit_lt : limit.toNat + 1 < 2 ^ 32

variable {m : Method Row} {t : Table Row V} {sorting : SortingParams} {limit : UInt32} {q : Query}
  {s : Select} {cursor : CursorParams} {S pre post : List Row} {x : Row} {token : String}

theorem Table.Answers.subset {q' : Query} {binds : List FilterValue} {result : List Row}
    (h : t.Answers q' binds result) : ∀ r ∈ result, r ∈ t.rows := by
  classical
  obtain ⟨s, ordered, -, hperm, -, rfl⟩ := h
  intro r hr
  have hordered : r ∈ ordered := by
    cases hlimit : limitCount q'.limitClause with
    | none => simpa [hlimit] using hr
    | some n =>
        rw [hlimit] at hr
        exact List.mem_of_mem_take hr
  exact List.mem_of_mem_filter (hperm.mem_iff.mp hordered)

theorem PageRequests.validateFields (h : PageRequests m sorting limit q s)
    (hcursor : PageCursor sorting.sorts.length cursor) :
    Dynamic.validateFields (pageRequest sorting limit cursor) = .ok () := by
  have hlen : ¬cursor.len > maxCursorFields := by
    have hcount := h.count
    cases hcursor with
    | first => exact Nat.not_lt_zero _
    | beyond direction values hlength =>
        show ¬values.length > maxCursorFields
        omega
  have hsorting : validateSorting (some sorting) = .ok () := by
    rw [validateSorting]
    split
    · rw [h.valid]
      rfl
    · rfl
  simp only [Dynamic.validateFields, pageRequest, hsorting, Bind.bind, Except.bind, if_neg hlen]

/-- The rows of the statement that a request sends to the database. -/
def Method.fetched (m : Method Row) (sorting : SortingParams) (limit : UInt32) (q : Query)
    (s : Select) (cursor : CursorParams) : List Row :=
  m.database (render (m.display.query (pageQuery q s sorting.sorts limit cursor))) cursor.values

/-- A request for a page is answered with the page made of the fetched rows. -/
theorem PageRequests.fetch_eq (h : PageRequests m sorting limit q s)
    (hcursor : PageCursor sorting.sorts.length cursor) :
    m.fetch (pageRequest sorting limit cursor) =
      (CursorPage.new m.ext (m.fetched sorting limit q s cursor)
        (pageRequest sorting limit cursor)).mapError .decode := by
  have hbuilt := buildDynamicSql_pageRequest h.backend h.base h.sorts h.count h.fields h.limit_lt
    hcursor
  simp only [Method.fetch, h.validateFields hcursor, hbuilt, Except.mapError, Bind.bind, Except.bind]
  rfl

theorem Pageable.requests (h : Pageable m t sorting limit q s) : PageRequests m sorting limit q s :=
  ⟨h.backend, h.base, h.sorts, h.count, h.fields, h.valid, h.limit_pos, h.limit_lt⟩

/-- A request for a page is answered: the rows are an answer to the page
statement and the page is made of them. -/
theorem Pageable.fetch (h : Pageable m t sorting limit q s)
    (hcursor : PageCursor sorting.sorts.length cursor) :
    ∃ fetched page, t.Answers (pageQuery q s sorting.sorts limit cursor) cursor.values fetched ∧
      m.fetch (pageRequest sorting limit cursor) = .ok page ∧
      NewPage m t sorting.sorts limit.toNat cursor fetched page := by
  have hanswers := h.answers cursor _ _ hcursor (dynamicStatement_pageRequest h.backend h.sorts
    h.count h.limit_lt hcursor h.base.body h.base.selection)
  obtain ⟨cursorField, toFilter, hexact⟩ := h.exact
  obtain ⟨page, hnew, hpage⟩ :=
    @ExactCursor.newPage _ _ m t sorting limit cursor _ _ hexact h.sorts h.limit_pos _
      hanswers.subset
  refine ⟨_, page, hanswers, ?_, hpage⟩
  rw [h.requests.fetch_eq hcursor, Method.fetched, hnew]
  rfl

/-- The first page. -/
theorem Pageable.fetch_firstPage (h : Pageable m t sorting limit q s)
    (hS : t.Sorted (sortKeys sorting.sorts false) S) :
    ∃ page, m.fetch (pageRequest sorting limit .firstPage) = .ok page ∧
      page.data = S.take limit.toNat ∧
      Shows m t sorting.sorts [] page (S.drop limit.toNat) := by
  obtain ⟨fetched, page, hanswers, hfetch, hpage⟩ := h.fetch PageCursor.first
  obtain rfl := answers_firstPage hS hanswers
  exact ⟨page, hfetch, hpage.forward rfl rfl⟩

theorem isEmpty_fromValues {sorts : List SortField} (hsorts : sorts ≠ [])
    {values : List FilterValue} (hlength : values.length = sorts.length)
    (direction : CursorDirection) : (CursorParams.fromValues values direction).isEmpty = false := by
  cases values with
  | nil => exact absurd (List.eq_nil_of_length_eq_zero hlength.symm) hsorts
  | cons => rfl

/-- The page behind a row. -/
theorem Pageable.fetch_nextCursor (h : Pageable m t sorting limit q s) 
    (hS : t.Sorted (sortKeys sorting.sorts false) (pre ++ x :: post))
    (htoken : StandsFor m.ext t sorting.sorts token x) :
    ∃ page, m.fetch (pageRequest sorting limit
        (CursorParams.nextCursor m.ext m.errorText token)) = .ok page ∧
      page.data = post.take limit.toNat ∧
      Shows m t sorting.sorts (pre ++ [x]) page (post.drop limit.toNat) := by
  obtain ⟨values, hnext, -, hvalues⟩ := nextCursor_of_standsFor htoken
  have hlength : values.length = sorting.sorts.length := by simpa using congrArg List.length hvalues
  obtain ⟨fetched, page, hanswers, hfetch, hpage⟩ := h.fetch (.beyond .after values hlength)
  obtain rfl := answers_beyond h.sorts h.count hS hvalues hanswers
  have hnonempty : (CursorParams.fromValues values .after).isEmpty = (pre ++ [x]).isEmpty := by
    rw [isEmpty_fromValues h.sorts hlength]
    simp
  rw [hnext]
  exact ⟨page, hfetch, hpage.forward rfl hnonempty⟩

/-- The page ahead of a row is made of these rows in reverse. -/
theorem Pageable.fetch_prevCursor (h : Pageable m t sorting limit q s)
    (hS : t.Sorted (sortKeys sorting.sorts false) (pre ++ x :: post))
    (htoken : StandsFor m.ext t sorting.sorts token x) :
    ∃ page cursor, m.fetch (pageRequest sorting limit
        (CursorParams.prevCursor m.ext m.errorText token)) = .ok page ∧
      isBackward cursor = true ∧ cursor.isEmpty = false ∧
      NewPage m t sorting.sorts limit.toNat cursor (pre.reverse.take (limit.toNat + 1)) page := by
  obtain ⟨values, -, hprev, hvalues⟩ := nextCursor_of_standsFor htoken
  have hlength : values.length = sorting.sorts.length := by simpa using congrArg List.length hvalues
  obtain ⟨fetched, page, hanswers, hfetch, hpage⟩ := h.fetch (.beyond .before values hlength)
  have hreverse : t.Sorted (sortKeys sorting.sorts true) (post.reverse ++ x :: pre.reverse) := by
    simpa using hS.reverse
  obtain rfl := answers_beyond h.sorts h.count hreverse hvalues hanswers
  rw [hprev]
  exact ⟨page, _, hfetch, rfl, isEmpty_fromValues h.sorts hlength .before, hpage⟩

end Fetching

/-! ### A table with three rows -/

namespace Example

open Reference

def ids : Table Int64 ℤ where
  rows := [1, 2, 3]
  column r c := if c = "id" then some r.toInt else none
  bound
    | .int i => some i.toInt
    | _ => none

theorem mem_ids {r : Int64} (h : r ∈ ids.rows) : r = 1 ∨ r = 2 ∨ r = 3 := by
  simpa [ids] using h

def byId : SortingParams := ⟨[⟨"id", .asc, .default, .safe⟩], [], none⟩

def users : Select := simpleSelect [.wildcard] "users" none

def allUsers : Query := simpleQuery (.select users)

def tokens : CursorSecureExtract Int64 where
  extractWhitelistedFields r fields :=
    fields.mapM fun field => if field = "id" then .ok (.int r) else .error (.invalidField field)
  encode c :=
    match c.entries with
    | [⟨.int i⟩] => .ok (if i = 1 then "1" else if i = 2 then "2" else "3")
    | _ => .error (.encodeError "one integer expected")
  decode token :=
    if token = "1" then .ok [.int 1]
    else if token = "2" then .ok [.int 2]
    else if token = "3" then .ok [.int 3]
    else .error (.decodeError "unknown token")

def idsBehind (binds : List FilterValue) (r : Int64) : Bool :=
  match binds with
  | [.int i] => i.toInt < r.toInt
  | _ => false

def idsAhead (binds : List FilterValue) (r : Int64) : Bool :=
  match binds with
  | [.int i] => r.toInt < i.toInt
  | _ => false

def firstText : List Char := "SELECT * FROM users ORDER BY id ASC LIMIT 2".toList
def afterText : List Char := "SELECT * FROM users WHERE id > $1 ORDER BY id ASC LIMIT 2".toList
def beforeText : List Char := "SELECT * FROM users WHERE id < $1 ORDER BY id DESC LIMIT 2".toList

def database (sql : List Char) (binds : List FilterValue) : List Int64 :=
  if sql = firstText then [1, 2]
  else if sql = afterText then ([1, 2, 3].filter (idsBehind binds)).take 2
  else if sql = beforeText then ([3, 2, 1].filter (idsAhead binds)).take 2
  else []

def listUsers : Method Int64 :=
  { cfg := ⟨.postgres, true, id⟩
    display := .reference
    parser := parserOf allUsers
    baseSql := text allUsers
    ext := tokens
    errorText := fun _ => "decode failed"
    database := database }

theorem sorted_ids : ids.Sorted (sortKeys byId.sorts false) [1, 2, 3] := by
  refine ⟨.refl _, ?_⟩
  simp [Table.Before, Table.key, sortKeys, byId, SortField.isAsc, SortDirection.isAsc,
    Seek.Precedes, Seek.Ahead, ids]

theorem text_firstPage : text (pageQuery allUsers users byId.sorts 1 .firstPage) = firstText := by
  decide

theorem text_beyond (direction : CursorDirection) (v : FilterValue) :
    text (pageQuery allUsers users byId.sorts 1 (.fromValues [v] direction)) =
      if direction = .after then afterText else beforeText := by
  have hsame : text (pageQuery allUsers users byId.sorts 1 (.fromValues [v] direction)) =
      text (pageQuery allUsers users byId.sorts 1 (.fromValues [.null] direction)) := rfl
  rw [hsame]
  cases direction <;> decide

theorem passes_iff (direction : CursorDirection) (v : FilterValue) (r : Int64) : 
    PassesClause (ids.truth [v] r) (seekWhere byId.sorts (.fromValues [v] direction)) ↔
      (if direction = .after then idsBehind [v] r else idsAhead [v] r) = true := by
  rw [passesClause_seekWhere (by decide) (by decide) direction rfl]
  cases direction <;> cases v <;>
    simp [sortKeys, byId, SortField.isAsc, SortDirection.isAsc, Table.key, ids, idsBehind, idsAhead,
      Seek.Precedes, Seek.Ahead]

theorem answers_database {cursor : CursorParams} (hcursor : PageCursor 1 cursor) :
    ids.Answers (pageQuery allUsers users byId.sorts 1 cursor) cursor.values
      (database (text (pageQuery allUsers users byId.sorts 1 cursor)) cursor.values) := by
  cases hcursor with
  | first =>
      rw [text_firstPage]
      have hall : ∀ r ∈ [1, 2, 3], (fun _ : Int64 => true) r = true ↔
          PassesClause (ids.truth [] r) (seekWhere byId.sorts .firstPage) := by
        intro r _
        simp [PassesClause, seekWhere, CursorParams.firstPage, CursorParams.default]
      exact @answers_of_sorted _ _ _ ids byId.sorts _ _ _ 1 .firstPage sorted_ids _ hall
  | beyond direction values h =>
      obtain ⟨v, rfl⟩ := List.length_eq_one_iff.mp h
      rw [text_beyond]
      have hpasses := fun r (_ : r ∈ [1, 2, 3]) => (passes_iff direction v r).symm
      cases direction with
      | after =>
          exact @answers_of_sorted _ _ _ ids byId.sorts _ _ _ 1 (.fromValues [v] .after) sorted_ids
            (idsBehind [v]) hpasses
      | before =>
          exact @answers_of_sorted _ _ _ ids byId.sorts _ _ _ 1 (.fromValues [v] .before)
            sorted_ids.reverse (idsAhead [v]) fun r hr =>
              hpasses r (by simpa [or_comm, or_left_comm, or_assoc] using hr)

/-- The filter value of an integer token. -/
def intFilter : CursorValue → FilterValue
  | .int i => .int i
  | _ => .null

/-- The assumptions can be met. -/
theorem pageable_listUsers : Pageable listUsers ids byId 1 allUsers users where
  backend := by decide
  base := ⟨rfl, rfl, rfl, by decide, by decide, by decide⟩
  sorts := by decide
  count := by decide
  fields := show ∀ sort ∈ byId.sorts, placeholderNumbers sort.field.toList = [] by decide
  valid := rfl
  limit_pos := by decide
  limit_lt := by decide
  keyed := by
    refine ⟨fun r hr => ?_, by decide⟩
    rcases mem_ids hr with rfl | rfl | rfl <;> decide
  exact := by
    refine ⟨fun r _ => .int r, intFilter, fun r hr => ?_, fun r hr => ?_, fun r hr => ?_⟩
    · rcases mem_ids hr with rfl | rfl | rfl <;> rfl
    · rcases mem_ids hr with rfl | rfl | rfl <;> exact ⟨_, rfl, rfl⟩
    · rcases mem_ids hr with rfl | rfl | rfl <;> decide
  answers := by
    intro cursor q' binds hcursor hstatement
    rw [dynamicStatement_pageRequest (by decide) (by decide) (by decide) (by decide) hcursor rfl rfl]
      at hstatement
    obtain ⟨hquery, rfl⟩ := Prod.mk.inj (Except.ok.inj hstatement)
    obtain rfl := Statement.query.inj hquery
    exact answers_database hcursor

end Example

end Paging

end SqlxData
