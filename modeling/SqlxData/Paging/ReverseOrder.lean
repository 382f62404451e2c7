import SqlxData.Paging.NullWalk

/-!
The order of a backward page. A Before cursor turns the direction of every sort
around and leaves the place of its NULLs as it is, so rows that a column with
such a place tells apart by a NULL keep their order.
-/

namespace SqlxData.Paging

open SqlxData.Sqlparser SqlxData.Dynamic Seek

variable {Row V : Type}

/-! ### The emitted orders -/

/-- The end a database puts NULLs at when ORDER BY does not say: PostgreSQL has
them above all values, SQLite and MySQL below. -/
def defaultNullsFirst : Backend → Bool → Bool
  | .postgres, asc => !asc
  | .sqlite, asc => asc
  | .mysql, asc => asc

theorem defaultNullsFirst_not (backend : Backend) (asc : Bool) :
    defaultNullsFirst backend (!asc) = !defaultNullsFirst backend asc := by
  cases backend <;> rfl

/-- The direction of a sort column and the end its NULLs are put at. -/
def placement (nullsFirst : Bool → Bool) (invert : Bool) (sort : SortField) : Bool × Bool :=
  let asc := if invert then !sort.isAsc else sort.isAsc
  (asc, sort.nullsAsBool.getD (nullsFirst asc))

theorem nullKeys_orderByOf_invert (nullsFirst : Bool → Bool) (sorts : List SortField)
    (invert : Bool) : nullKeys nullsFirst (some (orderByOf sorts invert)) =
      sorts.map fun sort => (sort.field, placement nullsFirst invert sort) := by
  simp only [nullKeys, orderByOf, List.filterMap_map]
  rw [← List.filterMap_eq_map]
  rfl

/-- The request with these sorts and this cursor, whatever else it asks for. -/
def cursorParams (params : Params) (sorting : SortingParams) (cursor : CursorParams) : Params :=
  { params with sortBy := some sorting, pagination := some (.cursor cursor) }

/-- The ORDER BY of the statement that is printed for a request. -/
def Emitted (cfg : Config) (q : Query) (params : Params) (orderBy : Option OrderBy) : Prop :=
  ∃ binds max q' binds', dynamicStatement cfg (.query q) params binds max =
    .ok (.query q', binds') ∧ orderBy = q'.orderBy

theorem Emitted.eq_orderByFor {cfg : Config} {q : Query} {params : Params}
    {orderBy : Option OrderBy} (h : Emitted cfg q params orderBy) (hempty : params.isEmpty = false) :
    orderBy = orderByFor params q.orderBy := by
  obtain ⟨binds, max, q', binds', hstatement, rfl⟩ := h
  rw [dynamicStatement, if_neg (by simp [hempty])] at hstatement
  obtain ⟨⟨q'', binds''⟩, hquery, hdone⟩ := Core.exists_of_bind_eq_ok hstatement
  obtain ⟨hsame, -⟩ := Prod.mk.inj (Except.ok.inj hdone)
  obtain rfl := Statement.query.inj hsame
  rw [processQuery] at hquery
  obtain ⟨n, -, hquery⟩ := Core.exists_of_bind_eq_ok hquery
  obtain ⟨⟨body, s⟩, -, hquery⟩ := Core.exists_of_bind_eq_ok hquery
  obtain ⟨limitClause, -, hquery⟩ := Core.exists_of_bind_eq_ok hquery
  obtain ⟨hsame, -⟩ := Prod.mk.inj (Except.ok.inj hquery)
  rw [← hsame]

/-- The rows of the table stand the other way round in the second order. -/
def Reversed [LinearOrder V] (t : Table Row V) (ks ks' : NullKeys) : Prop :=
  ∀ r ∈ t.rows, ∀ r' ∈ t.rows, t.RanksBefore ks r r' ↔ t.RanksBefore ks' r' r

/-- The two rows agree up to a sort that says where its NULLs go, and there
just one of them has a NULL. -/
def TornByNull (t : Table Row V) (sorts : List SortField) (r r' : Row) : Prop :=
  ∃ ahead sort behind, sorts = ahead ++ sort :: behind ∧ sort.nulls ≠ .default ∧
    (t.column r sort.field).isSome ≠ (t.column r' sort.field).isSome ∧
    ∀ sort' ∈ ahead, t.column r sort'.field = t.column r' sort'.field

section Orders

variable {t : Table Row V} {nullsFirst : Bool → Bool} {sorts : List SortField} {r r' : Row}

/-- Only a place of its own survives the inversion of a sort. -/
theorem placement_kept_iff (hdefault : ∀ asc, nullsFirst (!asc) = !nullsFirst asc)
    (sort : SortField) : (placement nullsFirst true sort).2 = (placement nullsFirst false sort).2 ↔
      sort.nulls ≠ .default := by
  cases hnulls : sort.nulls <;>
    simp [placement, SortField.nullsAsBool, hnulls, NullOrdering.asBoolOption, hdefault]

theorem torn_placement_iff (hdefault : ∀ asc, nullsFirst (!asc) = !nullsFirst asc) :
    Torn (placement nullsFirst false) (placement nullsFirst true) (fun s => t.column r s.field)
      (fun s => t.column r' s.field) sorts ↔ TornByNull t sorts r r' := by
  simp only [Torn, TornByNull, placement_kept_iff hdefault]

variable [LinearOrder V]

theorem ranksBefore_orderByOf (invert : Bool) :
    t.RanksBefore (nullKeys nullsFirst (some (orderByOf sorts invert))) r r' ↔
      Ranked (sorts.map (placement nullsFirst invert)) (sorts.map fun s => t.column r s.field)
        (sorts.map fun s => t.column r' s.field) := by
  rw [nullKeys_orderByOf_invert, Table.RanksBefore]
  simp only [List.map_map]
  rfl

/-- Two rows change sides unless a NULL tears them apart. -/
theorem ranksBefore_inverted_iff (hdefault : ∀ asc, nullsFirst (!asc) = !nullsFirst asc) :
    (t.RanksBefore (nullKeys nullsFirst (some (orderByOf sorts true))) r r' ↔
      t.RanksBefore (nullKeys nullsFirst (some (orderByOf sorts false))) r' r) ↔
      ¬TornByNull t sorts r r' := by
  rw [ranksBefore_orderByOf, ranksBefore_orderByOf,
    ranked_turned_iff _ _ (fun sort _ => rfl), torn_placement_iff hdefault]

end Orders

/-! ### Backward pages -/

section Pages

variable {cfg : Config} {q : Query} {params : Params} {sorting : SortingParams}
  {before after : CursorParams} {orderBefore orderAfter : Option OrderBy}

/-- A backward page holds the first fetched rows, the last of them first. -/
theorem exists_take_of_new {ext : CursorSecureExtract Row} {data : List Row}
    {page : CursorPage Row} {request : Params} (hcursor : request.pagination = some (.cursor before))
    (hbefore : isBackward before = true) (hpage : CursorPage.new ext data request = .ok page) :
    ∃ n, page.data = (data.take n).reverse := by
  have hdirection : decide (before.direction = some .before) = true := hbefore
  rw [CursorPage.new] at hpage
  split at hpage
  · cases hpage
  simp only [hcursor, hdirection, if_true, kept_eq_take] at hpage
  obtain ⟨⟨next, prev⟩, -, hdone⟩ := Core.exists_of_bind_eq_ok hpage
  exact ⟨_, by rw [← Except.ok.inj hdone]⟩

/-- The pages that are made of rows fetched in the first order are in the
second one. -/
def RestoresOrder [LinearOrder V] (t : Table Row V) (request : Params) (ks ks' : NullKeys) : Prop :=
  ∀ (ext : CursorSecureExtract Row) (fetched : List Row) (page : CursorPage Row),
    (∀ r ∈ fetched, r ∈ t.rows) → fetched.Pairwise (t.RanksBefore ks) →
    CursorPage.new ext fetched request = .ok page → page.data.Pairwise (t.RanksBefore ks')

theorem Reversed.restoresOrder [LinearOrder V] {t : Table Row V} {ks ks' : NullKeys}
    (h : Reversed t ks ks') (hbefore : isBackward before = true) :
    RestoresOrder t (cursorParams params sorting before) ks ks' := by
  intro ext fetched page hrows hsorted hpage
  obtain ⟨n, hdata⟩ := exists_take_of_new rfl hbefore hpage
  rw [hdata, List.pairwise_reverse]
  have hsorted := hsorted.sublist (List.take_sublist n fetched)
  refine hsorted.imp_of_mem fun {r r'} hr hr' hranks => ?_
  exact (h r (hrows r (List.mem_of_mem_take hr)) r' (hrows r' (List.mem_of_mem_take hr'))).mp hranks

/-- The order of a Before cursor is that of an After cursor turned around, and
reversing a backward page restores it, exactly when no two rows agree up to a
sort with a place for its NULLs where just one of them has a NULL. MySQL has no
NULLS FIRST and NULLS LAST: there only sorts without such a place are run. -/
theorem before_order_reversed_iff [LinearOrder V] (hbefore : isBackward before = true)
    (hafter : isBackward after = false)
    (hemittedBefore : Emitted cfg q (cursorParams params sorting before) orderBefore)
    (hemittedAfter : Emitted cfg q (cursorParams params sorting after) orderAfter)
    (t : Table Row V) (hdistinct : t.rows.Pairwise fun r r' =>
      (sorting.sorts.map fun s => t.column r s.field) ≠
        sorting.sorts.map fun s => t.column r' s.field) :
    Reversed t (nullKeys (defaultNullsFirst cfg.backend) orderBefore)
          (nullKeys (defaultNullsFirst cfg.backend) orderAfter) ∧
        RestoresOrder t (cursorParams params sorting before)
          (nullKeys (defaultNullsFirst cfg.backend) orderBefore)
          (nullKeys (defaultNullsFirst cfg.backend) orderAfter) ↔
      ∀ r ∈ t.rows, ∀ r' ∈ t.rows, ¬TornByNull t sorting.sorts r r' := by
  rw [and_iff_left_of_imp fun h => h.restoresOrder hbefore]
  rw [isBackward] at hbefore hafter
  obtain rfl := hemittedBefore.eq_orderByFor (by simp [cursorParams, Params.isEmpty])
  obtain rfl := hemittedAfter.eq_orderByFor (by simp [cursorParams, Params.isEmpty])
  simp only [orderByFor, cursorParams, shouldInvertOrder, hbefore, hafter]
  by_cases hsorts : sorting.sorts = []
  · -- no sort tells rows apart, so there is one row at most
    have hsame : ∀ r ∈ t.rows, ∀ r' ∈ t.rows, r = r' := by
      rw [hsorts] at hdistinct
      rcases hrows : t.rows with _ | ⟨r, _ | ⟨r', rows⟩⟩
      · simp
      · simp
      · rw [hrows] at hdistinct
        exact absurd rfl ((List.pairwise_cons.mp hdistinct).1 r' (by simp))
    constructor
    · rintro - r hr r' hr' ⟨ahead, sort, behind, hsplit, -⟩
      simp [hsorts] at hsplit
    · intro _ r hr r' hr'
      obtain rfl := hsame r hr r' hr'
      exact iff_of_false Ranked.irrefl Ranked.irrefl
  · simp only [List.isEmpty_eq_false_iff.mpr hsorts, Bool.not_false, if_true, Reversed,
      ranksBefore_inverted_iff (defaultNullsFirst_not cfg.backend)]

end Pages

section Example

open CommentsExample

/-- The tokens of the first and of the fourth comment. -/
def firstComment : List FilterValue := [.int 1, .int 1, .int 1]

def fourthComment : List FilterValue := [.int 2, .int 1, .int 4]

/-- The request for two comments. -/
def commentsRequest (nulls : NullOrdering) (cursor : CursorParams) : Params :=
  cursorParams { Params.default with limit := some 2 } (byRating nulls) cursor

theorem emitted_comments (nulls : NullOrdering) {cursor : CursorParams}
    (hcursor : PageCursor 3 cursor) : Emitted (listComments nulls).cfg allComments
      (commentsRequest nulls cursor) (some (orderByOf (byRating nulls).sorts (isBackward cursor))) :=
  ⟨[], 0, _, _, dynamicStatement_listComments nulls hcursor, rfl⟩

theorem distinct_comments (nulls : NullOrdering) : comments.rows.Pairwise fun r r' =>
    ((byRating nulls).sorts.map fun s => comments.column r s.field) ≠
      (byRating nulls).sorts.map fun s => comments.column r' s.field := by
  cases nulls <;> decide

theorem before_order_reversed_comments :
    Reversed comments (nullKeys (! ·) (some (orderByOf (byRating .default).sorts true)))
        (nullKeys (! ·) (some (orderByOf (byRating .default).sorts false))) ∧
      RestoresOrder comments (commentsRequest .default (.fromValues fourthComment .before))
        (nullKeys (! ·) (some (orderByOf (byRating .default).sorts true)))
        (nullKeys (! ·) (some (orderByOf (byRating .default).sorts false))) := by
  refine (before_order_reversed_iff
    (rfl : isBackward (.fromValues fourthComment .before) = true)
    (rfl : isBackward (.fromValues firstComment .after) = false)
    (emitted_comments .default (.beyond .before fourthComment rfl))
    (emitted_comments .default (.beyond .after firstComment rfl)) comments
    (distinct_comments .default)).mpr ?_
  -- no sort says where its NULLs go
  rintro r - r' - ⟨ahead, sort, behind, hsplit, hnulls, -⟩
  have hsort : sort ∈ (byRating .default).sorts := by rw [hsplit]; simp
  simp only [byRating, List.mem_cons, List.not_mem_nil, or_false] at hsort
  rcases hsort with rfl | rfl | rfl <;> exact hnulls rfl

/-- The third comment has no rating. With NULLS LAST it comes behind the first
one in both orders. -/
theorem before_order_not_reversed :
    Emitted (listComments .last).cfg allComments
        (commentsRequest .last (.fromValues fourthComment .before))
        (some (orderByOf (byRating .last).sorts true)) ∧
      Emitted (listComments .last).cfg allComments
        (commentsRequest .last (.fromValues firstComment .after))
        (some (orderByOf (byRating .last).sorts false)) ∧
      (comments.rows.Pairwise fun r r' =>
        ((byRating .last).sorts.map fun s => comments.column r s.field) ≠
          (byRating .last).sorts.map fun s => comments.column r' s.field) ∧
      comments.RanksBefore (nullKeys (! ·) (some (orderByOf (byRating .last).sorts true)))
        ⟨1, some 1, 1⟩ ⟨1, none, 3⟩ ∧
      comments.RanksBefore (nullKeys (! ·) (some (orderByOf (byRating .last).sorts false)))
        ⟨1, some 1, 1⟩ ⟨1, none, 3⟩ ∧
      ¬Reversed comments (nullKeys (! ·) (some (orderByOf (byRating .last).sorts true)))
        (nullKeys (! ·) (some (orderByOf (byRating .last).sorts false))) := by
  have hranks : ∀ invert, comments.RanksBefore
      (nullKeys (! ·) (some (orderByOf (byRating .last).sorts invert)))
      ⟨1, some 1, 1⟩ ⟨1, none, 3⟩ := by
    intro invert
    rw [ranksBefore_orderByOf]
    exact .inr ⟨rfl, .inl rfl⟩
  refine ⟨emitted_comments .last (.beyond .before fourthComment rfl),
    emitted_comments .last (.beyond .after firstComment rfl), distinct_comments .last,
    hranks true, hranks false, fun h => ?_⟩
  have hturned := (h ⟨1, some 1, 1⟩ (by simp [comments]) ⟨1, none, 3⟩ (by simp [comments])).mp
    (hranks true)
  exact ranksBefore_asymm _ _ (hranks false) hturned

end Example

end SqlxData.Paging
