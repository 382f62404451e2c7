import SqlxData.Dynamic.Noninterference
import SqlxData.Paging.ForwardWalk

/-!
The forward walk over sort columns with NULLs. ORDER BY puts the NULLs of a
column at one end; the comparisons of a cursor never hold for them. So rows that
NULLS LAST puts behind the end of a page are not found again.
-/

namespace SqlxData

namespace Paging

open SqlxData.Sqlparser SqlxData.Dynamic Seek

variable {Row V : Type}

/-! ### Tables with NULLs in order -/

/-- The columns of an ORDER BY, each with its direction (`true` is ascending)
and the end its NULLs are put at (`true` is the front). -/
abbrev NullKeys := List (String × Bool × Bool)

/-- The columns an ORDER BY over plain columns sorts by. When it does not say
where NULLs go, `nullsFirst` does for the direction of the column. -/
def nullKeys (nullsFirst : Bool → Bool) : Option OrderBy → NullKeys
  | some ⟨.expressions es, _⟩ => es.filterMap fun e =>
      match e.expr with
      | .identifier c =>
          let asc := e.options.asc.getD true
          some (c.value, asc, e.options.nullsFirst.getD (nullsFirst asc))
      | _ => none
  | _ => []

/-- The sort columns of a sort list. -/
def sortNullKeys (nullsFirst : Bool → Bool) (sorts : List SortField) : NullKeys :=
  sorts.map fun s => (s.field, s.isAsc, s.nullsAsBool.getD (nullsFirst s.isAsc))

theorem nullKeys_orderByOf (nullsFirst : Bool → Bool) (sorts : List SortField) :
    nullKeys nullsFirst (some (orderByOf sorts false)) = sortNullKeys nullsFirst sorts := by
  simp only [nullKeys, orderByOf, sortNullKeys, List.filterMap_map]
  rw [← List.filterMap_eq_map]
  rfl

/-- The row has no NULL in a sort column. -/
def NonNull (t : Table Row V) (sorts : List SortField) (r : Row) : Prop :=
  ∀ sort ∈ sorts, (t.column r sort.field).isSome

/-- Going through the sort columns, `y` agrees with `x` up to a NULLS LAST
column in which it is NULL. -/
def NullBehind (t : Table Row V) (sorts : List SortField) (x y : Row) : Prop :=
  ∃ ahead sort behind, sorts = ahead ++ sort :: behind ∧ sort.nulls = .last ∧
    t.column y sort.field = none ∧
    ∀ sort' ∈ ahead, t.column x sort'.field = t.column y sort'.field

variable [LinearOrder V]

/-- One row comes before another in the order of the columns. -/
def Table.RanksBefore (t : Table Row V) (ks : NullKeys) (r r' : Row) : Prop :=
  Ranked (ks.map Prod.snd) (ks.map fun k => t.column r k.1) (ks.map fun k => t.column r' k.1)

/-- `S` is the table in the order of the columns. -/
def Table.Arranged (t : Table Row V) (ks : NullKeys) (S : List Row) : Prop :=
  S.Perm t.rows ∧ S.Pairwise (t.RanksBefore ks)

/-- `result` is an answer to the query: the rows that pass the WHERE, in an
order that respects ORDER BY and its NULLS FIRST and NULLS LAST, up to the
LIMIT. -/
def Table.AnswersWithNulls (t : Table Row V) (nullsFirst : Bool → Bool) (q : Query)
    (binds : List FilterValue) (result : List Row) : Prop :=
  ∃ s ordered, q.body = .select s ∧ ordered.Perm (t.passing s.selection binds) ∧
    ordered.Pairwise (fun r r' => ¬t.RanksBefore (nullKeys nullsFirst q.orderBy) r' r) ∧
    result = (limitCount q.limitClause).elim ordered ordered.take

section Order

variable {t : Table Row V} {ks : NullKeys} {S S' : List Row} {nullsFirst : Bool → Bool}
  {sorts : List SortField} {x y : Row}

theorem ranksBefore_asymm (r r' : Row) (h : t.RanksBefore ks r r') : ¬t.RanksBefore ks r' r :=
  Ranked.asymm h

theorem ranksBefore_trans (r r' r'' : Row) (h : t.RanksBefore ks r r')
    (h' : t.RanksBefore ks r' r'') : t.RanksBefore ks r r'' := Ranked.trans h h'

theorem Table.Arranged.unique (h : t.Arranged ks S) (h' : t.Arranged ks S') : S' = S :=
  Seek.eq_of_perm ranksBefore_asymm h.2 (h'.1.trans h.1.symm)
    (h'.2.imp fun {r r'} hr => ranksBefore_asymm r r' hr)

/-- Rows that differ in a sort column can be arranged. -/
theorem exists_arranged {sort : SortField} (hsort : sort ∈ sorts)
    (hdistinct : t.rows.Pairwise fun r r' => t.column r sort.field ≠ t.column r' sort.field) :
    ∃ S, t.Arranged (sortNullKeys nullsFirst sorts) S := by
  refine Seek.exists_sorted ranksBefore_trans ranksBefore_asymm (hdistinct.imp ?_)
  intro r r' hne
  apply ranked_or_of_ne
  · simp
  · simp
  · simp only [sortNullKeys, List.map_map]
    intro hsame
    exact hne (List.map_inj_left.mp hsame sort hsort)

theorem ranksBefore_sortNullKeys : t.RanksBefore (sortNullKeys nullsFirst sorts) x y ↔
    Ranked (sorts.map fun s => (s.isAsc, s.nullsAsBool.getD (nullsFirst s.isAsc)))
      (sorts.map fun s => t.column x s.field) (sorts.map fun s => t.column y s.field) := by
  simp only [Table.RanksBefore, sortNullKeys, List.map_map]
  rfl

theorem before_sortKeys (nullsFirst : Bool → Bool) : t.Before (sortKeys sorts false) x y ↔
    Precedes ((sorts.map fun s => (s.isAsc, s.nullsAsBool.getD (nullsFirst s.isAsc))).map Prod.fst)
      (sorts.map fun s => t.column x s.field) (sorts.map fun s => t.column y s.field) := by
  rw [Table.Before, key_sortKeys, key_sortKeys]
  simp only [sortKeys, List.map_map]
  rfl

/-- What the cursor comparisons pick out comes behind in ORDER BY. -/
theorem Before.ranksBefore (h : t.Before (sortKeys sorts false) x y) :
    t.RanksBefore (sortNullKeys nullsFirst sorts) x y :=
  ranksBefore_sortNullKeys.mpr ((before_sortKeys nullsFirst).mp h).ranked

omit [LinearOrder V] in
theorem missingBehind_iff (nullsFirst : Bool → Bool)
    (hplaced : ∀ sort ∈ sorts, sort.nulls = .default → (t.column y sort.field).isSome) :
    MissingBehind (sorts.map fun s => (s.isAsc, s.nullsAsBool.getD (nullsFirst s.isAsc)))
        (sorts.map fun s => t.column x s.field) (sorts.map fun s => t.column y s.field) ↔
      NullBehind t sorts x y := by
  rw [missingBehind_map_iff]
  constructor
  · rintro ⟨ahead, sort, behind, rfl, hlast, hnone, hahead⟩
    refine ⟨ahead, sort, behind, rfl, ?_, hnone, hahead⟩
    cases hnulls : sort.nulls with
    | first => simp [SortField.nullsAsBool, hnulls, NullOrdering.asBoolOption] at hlast
    | last => rfl
    | default =>
        have hsome := hplaced sort (by simp) hnulls
        rw [hnone] at hsome
        cases hsome
  · rintro ⟨ahead, sort, behind, rfl, hlast, hnone, hahead⟩
    refine ⟨ahead, sort, behind, rfl, ?_, hnone, hahead⟩
    simp [SortField.nullsAsBool, hlast, NullOrdering.asBoolOption]

/-- The rows behind a row without NULLs in ORDER BY are those that the cursor
comparisons pick out and those that miss a value there. -/
theorem before_or_nullBehind (h : t.RanksBefore (sortNullKeys nullsFirst sorts) x y)
    (hx : NonNull t sorts x)
    (hplaced : ∀ sort ∈ sorts, sort.nulls = .default → (t.column y sort.field).isSome) :
    t.Before (sortKeys sorts false) x y ∨ NullBehind t sorts x y := by
  have hsome : ∀ a ∈ sorts.map fun s => t.column x s.field, a.isSome := by
    intro a ha
    obtain ⟨sort, hsort, rfl⟩ := List.mem_map.mp ha
    exact hx sort hsort
  exact ((ranksBefore_sortNullKeys.mp h).precedes_or_missingBehind hsome).imp
    (before_sortKeys nullsFirst).mpr (missingBehind_iff nullsFirst hplaced).mp

theorem Before.not_nullBehind (h : t.Before (sortKeys sorts false) x y)
    (hplaced : ∀ sort ∈ sorts, sort.nulls = .default → (t.column y sort.field).isSome) :
    ¬NullBehind t sorts x y := by
  intro hbehind
  exact ((before_sortKeys id).mp h).not_missingBehind ((missingBehind_iff id hplaced).mpr hbehind)

end Order

/-! ### A method over a table with NULLs -/

/-- Every row has a token. That of a row without NULLs decodes to its sort
values; a NULL may be encoded as any value. -/
structure NonNullCursor (ext : CursorSecureExtract Row) (t : Table Row V) (sorts : List SortField)
    (cursorField : Row → String → CursorValue) (toFilter : CursorValue → FilterValue) : Prop where
  extract : ∀ r ∈ t.rows, ext.extractWhitelistedFields r (sorts.map (·.field)) =
    .ok (sorts.map fun s => cursorField r s.field)
  roundTrip : ∀ r ∈ t.rows,
    let cursor := CursorData.newMulti (sorts.map fun s => ⟨cursorField r s.field⟩)
    ∃ token, ext.encode cursor = .ok token ∧ (NonNull t sorts r →
      ext.decode token = .ok (cursor.entries.map fun e => toFilter e.value))
  bound : ∀ r ∈ t.rows, ∀ s ∈ sorts, (t.column r s.field).isSome →
    t.bound (toFilter (cursorField r s.field)) = t.column r s.field

/-- The token of a row without NULLs stands for it. -/
def StandsForNonNull (ext : CursorSecureExtract Row) (t : Table Row V) (sorts : List SortField)
    (token : String) (r : Row) : Prop :=
  NonNull t sorts r → StandsFor ext t sorts token r

omit [LinearOrder V] in
theorem NonNullCursor.hasTokens {ext : CursorSecureExtract Row} {t : Table Row V}
    {sorts : List SortField} {cursorField : Row → String → CursorValue}
    {toFilter : CursorValue → FilterValue} (h : NonNullCursor ext t sorts cursorField toFilter) :
    HasTokens ext t.rows sorts (StandsForNonNull ext t sorts) := by
  intro r hr
  obtain ⟨token, hencode, hdecode⟩ := h.roundTrip r hr
  refine ⟨_, token, h.extract r hr, by simp, ?_, fun hnonNull => ⟨_, hdecode hnonNull, ?_⟩⟩
  · rw [List.map_map]
    exact hencode
  · simp only [CursorData.newMulti, List.map_map]
    exact List.map_congr_left fun s hs => h.bound r hr s hs (hnonNull s hs)

/-- The method pages through a table with NULLs: every sort column with NULLs
has its place for them in the sort list, the last one has none and tells the
rows apart, and the database answers the emitted statements by the definition of
SQL. -/
structure NullPageable (m : Method Row) (t : Table Row V) (nullsFirst : Bool → Bool)
    (sorting : SortingParams) (limit : UInt32) (q : Query) (s : Select) : Prop where
  requests : PageRequests m sorting limit q s
  placed : ∀ sort ∈ sorting.sorts, sort.nulls = .default →
    ∀ r ∈ t.rows, (t.column r sort.field).isSome
  unique : ∃ init last, sorting.sorts = init ++ [last] ∧
    (∀ r ∈ t.rows, (t.column r last.field).isSome) ∧
    t.rows.Pairwise fun r r' => t.column r last.field ≠ t.column r' last.field
  tokens : ∃ cursorField toFilter, NonNullCursor m.ext t sorting.sorts cursorField toFilter
  answers : ∀ cursor q' binds, PageCursor sorting.sorts.length cursor → isBackward cursor = false →
    dynamicStatement m.cfg (.query q) (pageRequest sorting limit cursor) [] 0 =
      .ok (.query q', binds) →
    t.AnswersWithNulls nullsFirst q' binds (m.database (render (m.display.query q')) binds)

/-- The cursors that the walk comes to. -/
inductive Visited (m : Method Row) (sorting : SortingParams) (limit : UInt32) : CursorParams → Prop
  | first : Visited m sorting limit .firstPage
  | next {cursor page token} : Visited m sorting limit cursor →
      m.fetch (pageRequest sorting limit cursor) = .ok page → page.nextCursor = some token →
      Visited m sorting limit (.nextCursor m.ext m.errorText token)

/-- No page of the walk that leads to another one ends with a NULL. -/
def NonNullEnds (m : Method Row) (t : Table Row V) (sorting : SortingParams) (limit : UInt32) :
    Prop :=
  ∀ cursor page r, Visited m sorting limit cursor →
    m.fetch (pageRequest sorting limit cursor) = .ok page → page.nextCursor.isSome →
    page.data.getLast? = some r → NonNull t sorting.sorts r

section Fetching

variable {m : Method Row} {t : Table Row V} {nullsFirst : Bool → Bool} {sorting : SortingParams}
  {limit : UInt32} {q : Query} {s : Select} {cursor : CursorParams} {S rest : List Row}
  {p : Row → Row → Bool} {pages : List (CursorPage Row)} {datas : List (List Row)} {x : Row}
  {token : String}

theorem eq_take_of_answersWithNulls (hforward : isBackward cursor = false)
    (hS : t.Arranged (sortNullKeys nullsFirst sorting.sorts) S) {result : List Row}
    (hresult : t.AnswersWithNulls nullsFirst (pageQuery q s sorting.sorts limit cursor)
      cursor.values result) {p : Row → Bool} (hp : ∀ row ∈ S, p row = true ↔
      PassesClause (t.truth cursor.values row) (seekWhere sorting.sorts cursor)) :
    result = (S.filter p).take (limit.toNat + 1) := by
  obtain ⟨_, ordered, hbody, hperm, hordered, rfl⟩ := hresult
  obtain rfl := SetExpr.select.inj hbody
  rw [isBackward] at hforward
  simp only [pageQuery, hforward, nullKeys_orderByOf, limitCount_pageLimit] at hperm hordered ⊢
  rw [Seek.eq_of_perm ranksBefore_asymm (hS.2.filter p) (hperm.trans (perm_passing hS.1 hp).symm)
    hordered]
  rfl

/-- The cursor is answered with the first of the `rest` of the rows and, when
there are more, with a token of the last of them. -/
def Selects (m : Method Row) (t : Table Row V) (sorting : SortingParams) (limit : UInt32)
    (cursor : CursorParams) (rest : List Row) : Prop :=
  ∃ page, m.fetch (pageRequest sorting limit cursor) = .ok page ∧
    page.data = rest.take limit.toNat ∧
    Option.Rel (StandsForNonNull m.ext t sorting.sorts) page.nextCursor
      (if limit.toNat < rest.length then (rest.take limit.toNat).getLast? else none)

theorem NullPageable.selects (h : NullPageable m t nullsFirst sorting limit q s)
    (hS : t.Arranged (sortNullKeys nullsFirst sorting.sorts) S)
    (hcursor : PageCursor sorting.sorts.length cursor) (hforward : isBackward cursor = false)
    {p : Row → Bool} (hp : ∀ row ∈ S, p row = true ↔
      PassesClause (t.truth cursor.values row) (seekWhere sorting.sorts cursor)) :
    Selects m t sorting limit cursor (S.filter p) := by
  have hrequests := h.requests
  have hanswers := h.answers cursor _ _ hcursor hforward (dynamicStatement_pageRequest
    hrequests.backend hrequests.sorts hrequests.count hrequests.limit_lt hcursor
    hrequests.base.body hrequests.base.selection)
  have hfetched : m.fetched sorting limit q s cursor = (S.filter p).take (limit.toNat + 1) :=
    eq_take_of_answersWithNulls hforward hS hanswers hp
  have hrows : ∀ r ∈ m.fetched sorting limit q s cursor, r ∈ t.rows := by
    rw [hfetched]
    exact fun r hr => hS.1.mem_iff.mp (List.mem_of_mem_filter (List.mem_of_mem_take hr))
  obtain ⟨cursorField, toFilter, htokens⟩ := h.tokens
  obtain ⟨next, prev, hnew, hnext, -⟩ := @HasTokens.newPage _ m sorting limit cursor _ _
    htokens.hasTokens hrequests.sorts hrequests.limit_pos _ hrows
  rw [hfetched] at hnew hnext
  rw [take_take_succ] at hnew hnext
  refine ⟨_, by rw [hrequests.fetch_eq hcursor, hfetched, hnew]; rfl, ?_, ?_⟩
  · simp [hforward]
  · have hmore : limit.toNat < ((S.filter p).take (limit.toNat + 1)).length ↔
        limit.toNat < (S.filter p).length := by
      rw [List.length_take]
      omega
    simpa only [hmore] using hnext

theorem NullPageable.selects_firstPage (h : NullPageable m t nullsFirst sorting limit q s)
    (hS : t.Arranged (sortNullKeys nullsFirst sorting.sorts) S) :
    Selects m t sorting limit .firstPage S := by
  have hall : ∀ row ∈ S, (fun _ => true) row = true ↔
      PassesClause (t.truth CursorParams.firstPage.values row)
        (seekWhere sorting.sorts .firstPage) := by
    intro row _
    simp [PassesClause, seekWhere, CursorParams.firstPage, CursorParams.default]
  have hselects := h.selects hS .first rfl hall
  rwa [List.filter_true] at hselects

/-- A token of a row without NULLs is answered with the rows that compare
behind it. -/
theorem NullPageable.selects_nextCursor (h : NullPageable m t nullsFirst sorting limit q s)
    (hS : t.Arranged (sortNullKeys nullsFirst sorting.sorts) S) {p : Row → Bool}
    (hp : ∀ y, p y = true ↔ t.Before (sortKeys sorting.sorts false) x y)
    (htoken : StandsFor m.ext t sorting.sorts token x) :
    Selects m t sorting limit (.nextCursor m.ext m.errorText token) (S.filter p) := by
  obtain ⟨values, hnext, -, hvalues⟩ := nextCursor_of_standsFor htoken
  have hlength : values.length = sorting.sorts.length := by simpa using congrArg List.length hvalues
  rw [hnext]
  apply h.selects hS (.beyond .after values hlength) rfl
  intro row _
  have hpasses := @passesClause_seekWhere Row V _ t sorting.sorts h.requests.sorts h.requests.count
    .after values hlength row
  rw [hvalues] at hpasses
  rw [hp, Table.Before, key_sortKeys sorting.sorts false x]
  exact hpasses.symm

omit [LinearOrder V] in
theorem Selects.last (h : Selects m t sorting limit cursor rest) {page : CursorPage Row}
    (hfetch : m.fetch (pageRequest sorting limit cursor) = .ok page)
    (hfew : rest.length ≤ limit.toNat) : page.data = rest ∧ page.nextCursor = none := by
  obtain ⟨page', hfetch', hdata, hnext⟩ := h
  obtain rfl := Except.ok.inj (hfetch'.symm.trans hfetch)
  rw [if_neg (Nat.not_lt_of_le hfew)] at hnext
  exact ⟨by rw [hdata, List.take_of_length_le hfew], eq_none_of_rel hnext⟩

omit [LinearOrder V] in
theorem Selects.more (h : Selects m t sorting limit cursor rest) {page : CursorPage Row}
    (hfetch : m.fetch (pageRequest sorting limit cursor) = .ok page)
    (hmore : limit.toNat < rest.length) {init : List Row}
    (htake : rest.take limit.toNat = init ++ [x]) :
    page.data = init ++ [x] ∧
      ∃ token, page.nextCursor = some token ∧ StandsForNonNull m.ext t sorting.sorts token x := by
  obtain ⟨page', hfetch', hdata, hnext⟩ := h
  obtain rfl := Except.ok.inj (hfetch'.symm.trans hfetch)
  rw [if_pos hmore, htake, List.getLast?_concat] at hnext
  exact ⟨by rw [hdata, htake], exists_of_rel hnext⟩

/-- A walk without NULLs at the ends of its pages goes from page to page by the
comparisons of the cursor. -/
theorem NullPageable.pages_of_walk (h : NullPageable m t nullsFirst sorting limit q s)
    (hS : t.Arranged (sortNullKeys nullsFirst sorting.sorts) S)
    (hp : ∀ x, NonNull t sorting.sorts x →
      ∀ y, p x y = true ↔ t.Before (sortKeys sorting.sorts false) x y)
    (hends : NonNullEnds m t sorting limit) (hwalk : Walk m sorting limit cursor pages)
    (hvisited : Visited m sorting limit cursor) (hselects : Selects m t sorting limit cursor rest) :
    Pages S p limit.toNat rest (pages.map (·.data)) := by
  -- a full page is not empty, so it has a last row
  have hfull : ∀ rest : List Row, limit.toNat < rest.length →
      ∃ init x, rest.take limit.toNat = init ++ [x] := by
    intro rest hmore
    have hlimit := h.requests.limit_pos
    obtain hnil | hpage := List.eq_nil_or_concat' (rest.take limit.toNat)
    · have hlength := congrArg List.length hnil
      rw [List.length_take, List.length_nil] at hlength
      omega
    · exact hpage
  induction hwalk generalizing rest with
  | last hfetch hnone =>
      rcases Nat.lt_or_ge limit.toNat rest.length with hmore | hfew
      · obtain ⟨init, x, htake⟩ := hfull rest hmore
        obtain ⟨-, token, htoken, -⟩ := hselects.more hfetch hmore htake
        rw [hnone] at htoken
        cases htoken
      · rw [List.map_singleton, (hselects.last hfetch hfew).1]
        exact .last hfew
  | @more cursor page token pages hfetch hsome hrest ih =>
      rcases Nat.lt_or_ge limit.toNat rest.length with hmore | hfew
      · obtain ⟨init, x, htake⟩ := hfull rest hmore
        obtain ⟨hdata, token', htoken, hstands⟩ := hselects.more hfetch hmore htake
        obtain rfl := Option.some.inj (hsome.symm.trans htoken)
        have hnonNull := hends cursor page x hvisited hfetch (by rw [hsome]; rfl)
          (by rw [hdata, List.getLast?_concat])
        rw [List.map_cons, hdata]
        exact .more hmore htake (ih (.next hvisited hfetch hsome)
          (h.selects_nextCursor hS (hp x hnonNull) (hstands hnonNull)))
      · rw [(hselects.last hfetch hfew).2] at hsome
        cases hsome

/-- Pages taken by the comparisons of the cursor are those of a walk. -/
theorem NullPageable.walk_of_pages (h : NullPageable m t nullsFirst sorting limit q s)
    (hS : t.Arranged (sortNullKeys nullsFirst sorting.sorts) S)
    (hp : ∀ x, NonNull t sorting.sorts x →
      ∀ y, p x y = true ↔ t.Before (sortKeys sorting.sorts false) x y)
    (hends : NonNullEnds m t sorting limit) (hpages : Pages S p limit.toNat rest datas)
    (hvisited : Visited m sorting limit cursor) (hselects : Selects m t sorting limit cursor rest) :
    ∃ pages, Walk m sorting limit cursor pages ∧ pages.map (·.data) = datas := by
  induction hpages generalizing cursor with
  | @last rest hfew =>
      obtain ⟨page, hfetch, -⟩ := id hselects
      obtain ⟨hdata, hnone⟩ := hselects.last hfetch hfew
      exact ⟨[page], .last hfetch hnone, by rw [List.map_singleton, hdata]⟩
  | @more rest init x datas hmore htake hrest ih =>
      obtain ⟨page, hfetch, -⟩ := id hselects
      obtain ⟨hdata, token, htoken, hstands⟩ := hselects.more hfetch hmore htake
      have hnonNull := hends cursor page x hvisited hfetch (by rw [htoken]; rfl)
        (by rw [hdata, List.getLast?_concat])
      obtain ⟨pages, hwalk, hdatas⟩ := ih (.next hvisited hfetch htoken)
        (h.selects_nextCursor hS (hp x hnonNull) (hstands hnonNull))
      exact ⟨page :: pages, .more hfetch htoken hwalk, by rw [List.map_cons, hdatas, hdata]⟩

/-- No page but the last ends with a NULL. -/
def NonNullPages (t : Table Row V) (sorts : List SortField) (datas : List (List Row)) : Prop :=
  ∀ data ∈ datas.dropLast, ∀ x ∈ data.getLast?, NonNull t sorts x

omit [LinearOrder V] in
theorem NonNullPages.of_cons {sorts : List SortField} {init : List Row} (hdatas : datas ≠ [])
    (h : NonNullPages t sorts ((init ++ [x]) :: datas)) :
    NonNull t sorts x ∧ NonNullPages t sorts datas := by
  rw [NonNullPages, List.dropLast_cons_of_ne_nil hdatas] at h
  exact ⟨h _ List.mem_cons_self x List.getLast?_concat, fun data hdata =>
    h data (List.mem_cons_of_mem _ hdata)⟩

/-- Pages taken by the comparisons of the cursor whose ends have no NULLs are
all the walk comes to. -/
theorem NullPageable.nonNullEnds_of_pages (h : NullPageable m t nullsFirst sorting limit q s)
    (hS : t.Arranged (sortNullKeys nullsFirst sorting.sorts) S)
    (hp : ∀ x, NonNull t sorting.sorts x →
      ∀ y, p x y = true ↔ t.Before (sortKeys sorting.sorts false) x y)
    (hpages : Pages S p limit.toNat S datas) (hnonNull : NonNullPages t sorting.sorts datas) :
    NonNullEnds m t sorting limit := by
  have hvisits : ∀ cursor, Visited m sorting limit cursor → ∃ rest datas',
      Selects m t sorting limit cursor rest ∧ Pages S p limit.toNat rest datas' ∧
        NonNullPages t sorting.sorts datas' := by
    intro cursor hvisited
    induction hvisited with
    | first => exact ⟨S, datas, h.selects_firstPage hS, hpages, hnonNull⟩
    | @next cursor page token _ hfetch htoken ih =>
        obtain ⟨rest, datas', hselects, hpages', hnonNull'⟩ := ih
        cases hpages' with
        | last hfew =>
            rw [(hselects.last hfetch hfew).2] at htoken
            cases htoken
        | more hmore htake hrest =>
            obtain ⟨-, token', htoken', hstands⟩ := hselects.more hfetch hmore htake
            obtain rfl := Option.some.inj (htoken.symm.trans htoken')
            obtain ⟨hx, hbehind⟩ := hnonNull'.of_cons hrest.ne_nil
            exact ⟨_, _, h.selects_nextCursor hS (hp _ hx) (hstands hx), hrest, hbehind⟩
  intro cursor page r hvisited hfetch htoken hlast
  obtain ⟨rest, datas', hselects, hpages', hnonNull'⟩ := hvisits cursor hvisited
  cases hpages' with
  | last hfew =>
      rw [(hselects.last hfetch hfew).2] at htoken
      cases htoken
  | more hmore htake hrest =>
      rw [(hselects.more hfetch hmore htake).1, List.getLast?_concat] at hlast
      obtain rfl := Option.some.inj hlast
      exact (hnonNull'.of_cons hrest.ne_nil).1

/-- A page statement has an answer: the rows that pass its WHERE, as they are
arranged. -/
theorem answersWithNulls_of_arranged (hforward : isBackward cursor = false)
    (hS : t.Arranged (sortNullKeys nullsFirst sorting.sorts) S) {p : Row → Bool}
    (hp : ∀ row ∈ S, p row = true ↔
      PassesClause (t.truth cursor.values row) (seekWhere sorting.sorts cursor)) :
    t.AnswersWithNulls nullsFirst (pageQuery q s sorting.sorts limit cursor) cursor.values
      ((S.filter p).take (limit.toNat + 1)) := by
  refine ⟨_, S.filter p, rfl, perm_passing hS.1 hp, ?_, ?_⟩
  · rw [isBackward] at hforward
    simp only [pageQuery, hforward, nullKeys_orderByOf]
    exact (hS.2.filter p).imp fun hr => ranksBefore_asymm _ _ hr
  · simp only [pageQuery, limitCount_pageLimit]
    rfl

theorem NullPageable.exists_arranged (h : NullPageable m t nullsFirst sorting limit q s) :
    ∃ S, t.Arranged (sortNullKeys nullsFirst sorting.sorts) S := by
  obtain ⟨init, last, hsorts, -, hdistinct⟩ := h.unique
  exact Paging.exists_arranged (by rw [hsorts]; simp) hdistinct

theorem fetchedRows_eq (pages : List (CursorPage Row)) :
    fetchedRows pages = (pages.map (·.data)).flatten := List.flatMap_def

theorem NullPageable.placed_of_mem (h : NullPageable m t nullsFirst sorting limit q s)
    (hS : t.Arranged (sortNullKeys nullsFirst sorting.sorts) S) {y : Row} (hy : y ∈ S) :
    ∀ sort ∈ sorting.sorts, sort.nulls = .default → (t.column y sort.field).isSome :=
  fun sort hsort hdefault => h.placed sort hsort hdefault y (hS.1.mem_iff.mp hy)

/-- A walk that yields all rows in order has no row behind the end of a page by
NULLS LAST: the comparisons of the cursor would have missed it, there and from
every later page. -/
theorem NullPageable.not_nullBehind_of_walk (h : NullPageable m t nullsFirst sorting limit q s)
    (hends : NonNullEnds m t sorting limit) (hwalk : Walk m sorting limit .firstPage pages)
    (hrows : t.Arranged (sortNullKeys nullsFirst sorting.sorts) (fetchedRows pages))
    {ahead behind : List Row}
    (hsplit : t.Arranged (sortNullKeys nullsFirst sorting.sorts) (ahead ++ x :: behind))
    (hend : limit.toNat ∣ ahead.length + 1) : ∀ y ∈ behind, ¬NullBehind t sorting.sorts x y := by
  intro y hy
  let p : Row → Row → Bool := fun x y => t.Before (sortKeys sorting.sorts false) x y
  have hpages : Pages (ahead ++ x :: behind) p limit.toNat _ (pages.map (·.data)) :=
    h.pages_of_walk hsplit (fun x _ y => decide_eq_true_iff) hends hwalk .first
      (h.selects_firstPage hsplit)
  have hall : ahead ++ x :: behind = [] ++ (pages.map (·.data)).flatten := by
    rw [← fetchedRows_eq, List.nil_append]
    exact hrows.unique hsplit
  have htrans : ∀ x y z, p x y = true → p y z = true → p x z = true := by
    intro x y z hxy hyz
    rw [decide_eq_true_iff] at hxy hyz ⊢
    exact before_trans x y z hxy hyz
  have hpasses := hpages.passes_of_flatten htrans hall (Nat.dvd_zero _) rfl (Nat.zero_le _) hend y hy
  rw [decide_eq_true_iff] at hpasses
  exact Before.not_nullBehind hpasses (h.placed_of_mem hsplit (by simp [hy]))

/-- When NULLS LAST puts no row behind the end of a page, the walk yields all
rows in order. -/
theorem NullPageable.exists_walk (h : NullPageable m t nullsFirst sorting limit q s)
    (hends : NonNullEnds m t sorting limit)
    (hS : t.Arranged (sortNullKeys nullsFirst sorting.sorts) S)
    (hkept : ∀ ahead x behind, S = ahead ++ x :: behind → limit.toNat ∣ ahead.length + 1 →
      ∀ y ∈ behind, ¬NullBehind t sorting.sorts x y) :
    ∃ pages, Walk m sorting limit .firstPage pages ∧ fetchedRows pages = S := by
  classical
  -- a row with NULLs is never the end of a page, so nothing is asked of it
  let p : Row → Row → Bool := fun x y =>
    if NonNull t sorting.sorts x then decide (t.Before (sortKeys sorting.sorts false) x y)
    else decide (t.RanksBefore (sortNullKeys nullsFirst sorting.sorts) x y)
  have hp : ∀ x, NonNull t sorting.sorts x →
      ∀ y, p x y = true ↔ t.Before (sortKeys sorting.sorts false) x y := by
    intro x hx y
    simp only [p, if_pos hx, decide_eq_true_iff]
  have hsound : ∀ x y, p x y = true →
      t.RanksBefore (sortNullKeys nullsFirst sorting.sorts) x y := by
    intro x y hxy
    by_cases hx : NonNull t sorting.sorts x
    · exact Before.ranksBefore ((hp x hx y).mp hxy)
    · simpa only [p, if_neg hx, decide_eq_true_iff] using hxy
  have hpasses : ∀ ahead x behind, S = ahead ++ x :: behind → limit.toNat ∣ ahead.length + 1 →
      ∀ y ∈ behind, p x y = true := by
    rintro ahead x behind rfl hend y hy
    have hbehind : t.RanksBefore (sortNullKeys nullsFirst sorting.sorts) x y :=
      (List.pairwise_cons.mp (List.pairwise_append.mp hS.2).2.1).1 y hy
    by_cases hx : NonNull t sorting.sorts x
    · have hfound := before_or_nullBehind hbehind hx (h.placed_of_mem hS (by simp [hy]))
      exact (hp x hx y).mpr (hfound.resolve_right (hkept ahead x behind rfl hend y hy))
    · simpa only [p, if_neg hx, decide_eq_true_iff] using hbehind
  obtain ⟨datas, hpages, hflatten⟩ := exists_pages_of_passes h.requests.limit_pos
    ranksBefore_asymm hS.2 hsound hpasses (List.nil_append S).symm (Nat.dvd_zero _)
  obtain ⟨pages, hwalk, hdatas⟩ := h.walk_of_pages hS hp hends hpages .first (h.selects_firstPage hS)
  exact ⟨pages, hwalk, by rw [fetchedRows_eq, hdatas, hflatten]⟩

/-- When no page ends with a NULL, the walk from the first page yields every row
once, in the order of ORDER BY, if and only if NULLS LAST never puts a row behind
the end of a page: no row behind it agrees with the last row of the page up to a
NULLS LAST column in which it is NULL. -/
theorem null_walk_complete_iff (h : NullPageable m t nullsFirst sorting limit q s)
    (hends : NonNullEnds m t sorting limit) :
    (∃ pages, Walk m sorting limit .firstPage pages ∧ (fetchedRows pages).Perm t.rows ∧
        (fetchedRows pages).Pairwise (t.RanksBefore (sortNullKeys nullsFirst sorting.sorts))) ↔
      ∀ ahead x behind,
        t.Arranged (sortNullKeys nullsFirst sorting.sorts) (ahead ++ x :: behind) →
        limit.toNat ∣ ahead.length + 1 → ∀ y ∈ behind, ¬NullBehind t sorting.sorts x y := by
  constructor
  · rintro ⟨pages, hwalk, hperm, hordered⟩ ahead x behind hsplit hend
    exact h.not_nullBehind_of_walk hends hwalk ⟨hperm, hordered⟩ hsplit hend
  · intro hkept
    obtain ⟨S, hS⟩ := h.exists_arranged
    obtain ⟨pages, hwalk, hrows⟩ := h.exists_walk hends hS fun ahead x behind hsplit =>
      hkept ahead x behind (hsplit ▸ hS)
    rw [← hrows] at hS
    exact ⟨pages, hwalk, hS.1, hS.2⟩

end Fetching

/-! ### Comments by rating -/

namespace CommentsExample

open Reference

structure Comment where
  topic : Int64
  rating : Option Int64
  id : Int64
  deriving DecidableEq

/-- The third comment has no rating. -/
def comments : Table Comment ℤ where
  rows := [⟨1, some 1, 1⟩, ⟨1, some 1, 2⟩, ⟨1, none, 3⟩, ⟨2, some 1, 4⟩]
  column r c :=
    if c = "topic" then some r.topic.toInt
    else if c = "rating" then r.rating.map Int64.toInt
    else if c = "id" then some r.id.toInt
    else none
  bound
    | .int i => some i.toInt
    | _ => none

theorem mem_comments {r : Comment} (h : r ∈ comments.rows) :
    r = ⟨1, some 1, 1⟩ ∨ r = ⟨1, some 1, 2⟩ ∨ r = ⟨1, none, 3⟩ ∨ r = ⟨2, some 1, 4⟩ := by
  simpa [comments] using h

def byRating (nulls : NullOrdering) : SortingParams :=
  ⟨[⟨"topic", .asc, .default, .safe⟩, ⟨"rating", .asc, nulls, .safe⟩,
    ⟨"id", .asc, .default, .safe⟩], [], none⟩

def commentsSelect : Select := simpleSelect [.wildcard] "comments" none

def allComments : Query := simpleQuery (.select commentsSelect)

/-- A missing rating is encoded as `0`. -/
def tokens : CursorSecureExtract Comment where
  extractWhitelistedFields r fields :=
    fields.mapM fun field =>
      if field = "topic" then .ok (.int r.topic)
      else if field = "rating" then .ok (.int (r.rating.getD 0))
      else if field = "id" then .ok (.int r.id)
      else .error (.invalidField field)
  encode c :=
    match c.entries with
    | [⟨.int _⟩, ⟨.int _⟩, ⟨.int id⟩] =>
        .ok (if id = 1 then "1" else if id = 2 then "2" else if id = 3 then "3" else "4")
    | _ => .error (.encodeError "three integers expected")
  decode token :=
    if token = "1" then .ok [.int 1, .int 1, .int 1]
    else if token = "2" then .ok [.int 1, .int 1, .int 2]
    else if token = "3" then .ok [.int 1, .int 0, .int 3]
    else if token = "4" then .ok [.int 2, .int 1, .int 4]
    else .error (.decodeError "unknown token")

/-- The comments in the order of the sort list. -/
def inOrder : NullOrdering → List Comment
  | .first => [⟨1, none, 3⟩, ⟨1, some 1, 1⟩, ⟨1, some 1, 2⟩, ⟨2, some 1, 4⟩]
  | _ => [⟨1, some 1, 1⟩, ⟨1, some 1, 2⟩, ⟨1, none, 3⟩, ⟨2, some 1, 4⟩]

def orderText (nulls : NullOrdering) : List Char :=
  " ORDER BY topic ASC, rating ASC".toList ++
    (match nulls with
    | .first => " NULLS FIRST".toList
    | .last => " NULLS LAST".toList
    | .default => []) ++ ", id ASC LIMIT 3".toList

def firstText (nulls : NullOrdering) : List Char :=
  "SELECT * FROM comments".toList ++ orderText nulls

def afterText (nulls : NullOrdering) : List Char :=
  "SELECT * FROM comments".toList ++ " WHERE topic > $1 OR ".toList ++
    "(topic = $1 AND (rating > $2 OR (rating = $2 AND id > $3)))".toList ++ orderText nulls

def behind (binds : List FilterValue) (r : Comment) : Bool :=
  Precedes [true, true, true] (binds.map comments.bound)
    [some r.topic.toInt, r.rating.map Int64.toInt, some r.id.toInt]

def database (nulls : NullOrdering) (sql : List Char) (binds : List FilterValue) : List Comment :=
  if sql = firstText nulls then (inOrder nulls).take 3
  else if sql = afterText nulls then ((inOrder nulls).filter (behind binds)).take 3
  else []

def listComments (nulls : NullOrdering) : Method Comment :=
  { cfg := ⟨.postgres, true, id⟩
    display := .reference
    parser := parserOf allComments
    baseSql := text allComments
    ext := tokens
    errorText := fun _ => "decode failed"
    database := database nulls }

theorem text_firstPage (nulls : NullOrdering) :
    text (pageQuery allComments commentsSelect (byRating nulls).sorts 2 .firstPage) =
      firstText nulls := by
  cases nulls <;> decide +kernel

theorem dynamicStatement_listComments (nulls : NullOrdering) {cursor : CursorParams}
    (hcursor : PageCursor 3 cursor) :
    dynamicStatement (listComments nulls).cfg (.query allComments)
        (pageRequest (byRating nulls) 2 cursor) [] 0 =
      .ok (.query (pageQuery allComments commentsSelect (byRating nulls).sorts 2 cursor),
        cursor.values) :=
  @dynamicStatement_pageRequest (listComments nulls).cfg (by simp [listComments]) (byRating nulls)
    (by simp [byRating]) (by simp [byRating]) 2 (by decide) _ hcursor _ _ rfl rfl

theorem text_after (nulls : NullOrdering) {values : List FilterValue}
    (hlength : values.length = 3) :
    text (pageQuery allComments commentsSelect (byRating nulls).sorts 2
      (.fromValues values .after)) = afterText nulls := by
  -- the text does not depend on the values, so it is that of three NULLs
  have halike : (pageRequest (byRating nulls) 2 (.fromValues values .after)).Alike
      (pageRequest (byRating nulls) 2 (.fromValues [.null, .null, .null] .after)) :=
    ⟨.none, .none, rfl, rfl, rfl, .some ⟨rfl, hlength, rfl⟩⟩
  have hboth := @dynamicStatement_alike (listComments nulls).cfg .reference _ _ halike
    (.query allComments) [] 0
  rw [dynamicStatement_listComments nulls (.beyond .after values hlength),
    dynamicStatement_listComments nulls (.beyond .after _ rfl)] at hboth
  cases hboth with
  | ok h =>
      refine h.1.trans ?_
      cases nulls <;> decide +kernel

theorem afterText_ne (nulls : NullOrdering) : afterText nulls ≠ firstText nulls := by
  cases nulls <;> decide +kernel

theorem arranged_inOrder {nulls : NullOrdering} (hnulls : nulls ≠ .default) :
    comments.Arranged (sortNullKeys (! ·) (byRating nulls).sorts) (inOrder nulls) := by
  cases nulls with
  | first =>
      refine ⟨by decide, ?_⟩
      simp [Table.RanksBefore, sortNullKeys, byRating, inOrder, comments, SortField.isAsc,
        SortDirection.isAsc, SortField.nullsAsBool, NullOrdering.asBoolOption, Ranked, InFront]
  | last =>
      refine ⟨by decide, ?_⟩
      simp [Table.RanksBefore, sortNullKeys, byRating, inOrder, comments, SortField.isAsc,
        SortDirection.isAsc, SortField.nullsAsBool, NullOrdering.asBoolOption, Ranked, InFront]
  | default => exact absurd rfl hnulls

theorem passes_iff (nulls : NullOrdering) {values : List FilterValue} (hlength : values.length = 3)
    (r : Comment) : behind values r = true ↔
      PassesClause (comments.truth values r)
        (seekWhere (byRating nulls).sorts (.fromValues values .after)) := by
  rw [passesClause_seekWhere (by simp [byRating]) (by simp [byRating]) .after hlength]
  exact decide_eq_true_iff

theorem answers_database {nulls : NullOrdering} (hnulls : nulls ≠ .default) {cursor : CursorParams}
    (hcursor : PageCursor 3 cursor) (hforward : isBackward cursor = false) :
    comments.AnswersWithNulls (! ·)
      (pageQuery allComments commentsSelect (byRating nulls).sorts 2 cursor) cursor.values
      (database nulls (text (pageQuery allComments commentsSelect (byRating nulls).sorts 2 cursor))
        cursor.values) := by
  cases hcursor with
  | first =>
      rw [text_firstPage, database, if_pos rfl]
      have hall : ∀ r ∈ inOrder nulls, (fun _ : Comment => true) r = true ↔
          PassesClause (comments.truth [] r) (seekWhere (byRating nulls).sorts .firstPage) := by
        intro r _
        simp [PassesClause, seekWhere, CursorParams.firstPage, CursorParams.default]
      have hanswers := @answersWithNulls_of_arranged Comment ℤ _ comments (! ·) (byRating nulls) 2
        allComments commentsSelect .firstPage (inOrder nulls) rfl (arranged_inOrder hnulls) _ hall
      rwa [List.filter_true] at hanswers
  | beyond direction values hlength =>
      obtain rfl : direction = .after := by
        cases direction with
        | after => rfl
        | before => cases hforward
      rw [text_after nulls hlength, database, if_neg (afterText_ne nulls), if_pos rfl]
      exact @answersWithNulls_of_arranged Comment ℤ _ comments (! ·) (byRating nulls) 2 allComments
        commentsSelect (.fromValues values .after) (inOrder nulls) rfl (arranged_inOrder hnulls) _
        fun r _ => passes_iff nulls hlength r

theorem baseSelect_allComments : BaseSelect .reference (parserOf allComments) (text allComments)
    allComments commentsSelect := ⟨rfl, rfl, rfl, by decide, by decide, by decide⟩

/-- The assumptions can be met. -/
theorem nullPageable_listComments {nulls : NullOrdering} (hnulls : nulls ≠ .default) :
    NullPageable (listComments nulls) comments (! ·) (byRating nulls) 2 allComments
      commentsSelect where
  requests :=
    { backend := by simp [listComments]
      base := baseSelect_allComments
      sorts := by simp [byRating]
      count := by simp [byRating, maxCursorFields]
      fields := by
        have hplain : ∀ field ∈ ["topic", "rating", "id"],
            placeholderNumbers field.toList = [] := by decide
        intro sort hsort
        apply hplain
        simpa [byRating] using List.mem_map_of_mem (f := SortField.field) hsort
      valid := rfl
      limit_pos := by decide
      limit_lt := by decide }
  placed := by
    intro sort hsort hdefault r hr
    simp only [byRating, List.mem_cons, List.not_mem_nil, or_false] at hsort
    rcases hsort with rfl | rfl | rfl
    · rfl
    · exact absurd hdefault hnulls
    · rfl
  unique := ⟨[⟨"topic", .asc, .default, .safe⟩, ⟨"rating", .asc, nulls, .safe⟩],
    ⟨"id", .asc, .default, .safe⟩, rfl, fun r _ => rfl, by decide⟩
  tokens := by
    refine ⟨fun r field => .int (if field = "topic" then r.topic
        else if field = "rating" then r.rating.getD 0 else r.id),
      Example.intFilter, fun r hr => ?_, fun r hr => ?_, fun r hr s hs hsome => ?_⟩
    · rfl
    · rcases mem_comments hr with rfl | rfl | rfl | rfl <;> exact ⟨_, rfl, fun _ => rfl⟩
    · simp only [byRating, List.mem_cons, List.not_mem_nil, or_false] at hs
      rcases hs with rfl | rfl | rfl
      · rfl
      · obtain ⟨rating, hrating⟩ := Option.isSome_iff_exists.mp hsome
        cases hcase : r.rating <;> simp_all [comments, Example.intFilter]
      · rfl
  answers := by
    intro cursor q' binds hcursor hforward hstatement
    rw [dynamicStatement_listComments nulls hcursor] at hstatement
    obtain ⟨hquery, rfl⟩ := Prod.mk.inj (Except.ok.inj hstatement)
    obtain rfl := Statement.query.inj hquery
    exact answers_database hnulls hcursor hforward

/-- The comparisons of the cursor. -/
def comesBehind (nulls : NullOrdering) (x y : Comment) : Bool :=
  comments.Before (sortKeys (byRating nulls).sorts false) x y

theorem comesBehind_iff (nulls : NullOrdering) (x y : Comment) : comesBehind nulls x y = true ↔
    comments.Before (sortKeys (byRating nulls).sorts false) x y := decide_eq_true_iff

/-- The pages of the walk: with NULLS FIRST two full ones, with NULLS LAST the
third comment is missing. -/
def walked : NullOrdering → List (List Comment)
  | .first => [[⟨1, none, 3⟩, ⟨1, some 1, 1⟩], [⟨1, some 1, 2⟩, ⟨2, some 1, 4⟩]]
  | _ => [[⟨1, some 1, 1⟩, ⟨1, some 1, 2⟩], [⟨2, some 1, 4⟩]]

theorem pages_walked (nulls : NullOrdering) :
    Pages (inOrder nulls) (comesBehind nulls) 2 (inOrder nulls) (walked nulls) := by
  have hfirst : (inOrder .first).filter (comesBehind .first ⟨1, some 1, 1⟩) =
      [⟨1, some 1, 2⟩, ⟨2, some 1, 4⟩] := by decide
  have hlast : (inOrder .last).filter (comesBehind .last ⟨1, some 1, 2⟩) = [⟨2, some 1, 4⟩] := by
    decide
  have hshort : ∀ rest : List Comment, rest.length ≤ 2 → Pages (inOrder nulls) (comesBehind nulls) 2
      rest [rest] := fun rest => .last
  cases nulls with
  | first => exact @Pages.more _ _ _ _ _ [_] _ _ (by decide) rfl (hfirst ▸ hshort _ (by decide))
  | last => exact @Pages.more _ _ _ _ _ [_] _ _ (by decide) rfl (hlast ▸ hshort _ (by decide))
  | default => exact @Pages.more _ _ _ _ _ [_] _ _ (by decide) rfl (hlast ▸ hshort _ (by decide))

theorem nonNull_of_rated {nulls : NullOrdering} {x : Comment} (h : x.rating.isSome) :
    NonNull comments (byRating nulls).sorts x := by
  intro sort hsort
  simp only [byRating, List.mem_cons, List.not_mem_nil, or_false] at hsort
  rcases hsort with rfl | rfl | rfl
  · rfl
  · simpa [comments] using h
  · rfl

theorem nonNullEnds_listComments {nulls : NullOrdering} (hnulls : nulls ≠ .default) :
    NonNullEnds (listComments nulls) comments (byRating nulls) 2 := by
  apply (nullPageable_listComments hnulls).nonNullEnds_of_pages (arranged_inOrder hnulls)
    (fun x _ => comesBehind_iff nulls x) (pages_walked nulls)
  intro data hdata x hx
  apply nonNull_of_rated
  cases nulls <;> simp [walked] at hdata <;> subst hdata <;> simp at hx <;> subst hx <;> rfl

/-- Every second comment in the order has a rating. -/
theorem nonNull_of_arranged {ahead behind : List Comment} {x : Comment}
    (h : comments.Arranged (sortNullKeys (! ·) (byRating .last).sorts) (ahead ++ x :: behind))
    (hend : 2 ∣ ahead.length + 1) : NonNull comments (byRating .last).sorts x := by
  have hsplit : ahead ++ x :: behind = inOrder .last :=
    (arranged_inOrder (by decide)).unique h
  have hlength := congrArg List.length hsplit
  simp only [inOrder] at hsplit hlength
  apply nonNull_of_rated
  match ahead with
  | [] => exact absurd hend (by decide)
  | [_] =>
      simp only [List.cons_append, List.nil_append, List.cons.injEq] at hsplit
      rw [hsplit.2.1]
      rfl
  | [_, _] => exact absurd hend (by simp)
  | [_, _, _] =>
      simp only [List.cons_append, List.nil_append, List.cons.injEq] at hsplit
      rw [hsplit.2.2.2.1]
      rfl
  | _ :: _ :: _ :: _ :: ahead =>
      simp at hlength

end CommentsExample

open CommentsExample in
/-- With NULLS FIRST the walk yields all four comments. -/
theorem null_walk_complete_comments :
    ∃ pages, Walk (listComments .first) (byRating .first) 2 .firstPage pages ∧
      (fetchedRows pages).Perm comments.rows ∧
      (fetchedRows pages).Pairwise
        (comments.RanksBefore (sortNullKeys (! ·) (byRating .first).sorts)) := by
  have hnulls : NullOrdering.first ≠ .default := by decide
  refine (null_walk_complete_iff (nullPageable_listComments hnulls)
    (nonNullEnds_listComments hnulls)).mpr ?_
  -- no column is sorted with NULLS LAST
  rintro ahead x behind - - y - ⟨before, sort, after, hsorts, hlast, -⟩
  have hsort : sort ∈ (byRating .first).sorts := by rw [hsorts]; simp
  simp only [byRating, List.mem_cons, List.not_mem_nil, or_false] at hsort
  rcases hsort with rfl | rfl | rfl <;> cases hlast

open CommentsExample in
/-- With NULLS LAST the walk ends without the third comment, though neither the
pages it takes nor the comments taken two by two end with a NULL. -/
theorem null_walk_loses_row :
    NullPageable (listComments .last) comments (! ·) (byRating .last) 2 allComments
        commentsSelect ∧
      NonNullEnds (listComments .last) comments (byRating .last) 2 ∧
      (∀ ahead x behind,
        comments.Arranged (sortNullKeys (! ·) (byRating .last).sorts) (ahead ++ x :: behind) →
        2 ∣ ahead.length + 1 → NonNull comments (byRating .last).sorts x) ∧
      (∃ pages, Walk (listComments .last) (byRating .last) 2 .firstPage pages ∧
        fetchedRows pages = [⟨1, some 1, 1⟩, ⟨1, some 1, 2⟩, ⟨2, some 1, 4⟩]) ∧
      ¬∃ pages, Walk (listComments .last) (byRating .last) 2 .firstPage pages ∧
        (fetchedRows pages).Perm comments.rows ∧
        (fetchedRows pages).Pairwise
          (comments.RanksBefore (sortNullKeys (! ·) (byRating .last).sorts)) := by
  have hnulls : NullOrdering.last ≠ .default := by decide
  have hpageable := nullPageable_listComments hnulls
  have hends := nonNullEnds_listComments hnulls
  obtain ⟨pages, hwalk, hdatas⟩ := hpageable.walk_of_pages (arranged_inOrder hnulls)
    (fun x _ => comesBehind_iff .last x) hends (pages_walked .last) .first
    (hpageable.selects_firstPage (arranged_inOrder hnulls))
  have hrows : fetchedRows pages = [⟨1, some 1, 1⟩, ⟨1, some 1, 2⟩, ⟨2, some 1, 4⟩] := by
    rw [fetchedRows_eq, hdatas]
    rfl
  refine ⟨hpageable, hends, fun ahead x behind => nonNull_of_arranged, ⟨pages, hwalk, hrows⟩, ?_⟩
  rintro ⟨pages', hwalk', hperm, -⟩
  rw [hwalk.unique hwalk', hrows] at hperm
  exact absurd hperm.length_eq (by decide)

end Paging

end SqlxData
