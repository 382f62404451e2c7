import SqlxData.Paging.FetchPage

/-!
Navigation in both directions: pages reached from the first one by following
`next_cursor` and `prev_cursor`. A page fetched backwards carries tokens of its
rows in the order of the fetch and has a `next_cursor` only when rows are left
ahead of it, so navigation stays exact as long as such a page has one row and
more rows ahead of it.
-/

namespace SqlxData.Paging

open SqlxData.Sqlparser SqlxData.Dynamic

variable {Row V : Type} {m : Method Row} {sorting : SortingParams} {limit : UInt32}

/-- The pages reached from the first page, where `prev_cursor` is followed from
the pages in `back` only. -/
inductive Reached (m : Method Row) (sorting : SortingParams) (limit : UInt32)
    (back : CursorPage Row → Prop) : CursorPage Row → Prop
  | first {page} : m.fetch (pageRequest sorting limit .firstPage) = .ok page →
      Reached m sorting limit back page
  | next {page token page'} : Reached m sorting limit back page → page.nextCursor = some token →
      m.fetch (pageRequest sorting limit (.nextCursor m.ext m.errorText token)) = .ok page' →
      Reached m sorting limit back page'
  | prev {page token page'} : Reached m sorting limit back page → back page →
      page.prevCursor = some token →
      m.fetch (pageRequest sorting limit (.prevCursor m.ext m.errorText token)) = .ok page' →
      Reached m sorting limit back page'

variable [LinearOrder V] {t : Table Row V} {q : Query} {s : Select}

/-- The page is the run between `pre` and `post` of the sorted table, says so in
its flags and tokens, and the tokens lead to the rows next to it. -/
structure NavigableAt (m : Method Row) (t : Table Row V) (sorting : SortingParams)
    (limit : UInt32) (pre : List Row) (page : CursorPage Row) (post : List Row) : Prop where
  contiguous : t.Sorted (sortKeys sorting.sorts false) (pre ++ page.data ++ post)
  hasNext : page.hasNext = true ↔ post ≠ []
  nextCursor : page.nextCursor.isSome = true ↔ post ≠ []
  next : ∀ token ∈ page.nextCursor, ∃ page',
    m.fetch (pageRequest sorting limit (.nextCursor m.ext m.errorText token)) = .ok page' ∧
      page'.data = post.take limit.toNat
  hasPrev : page.hasPrev = true ↔ pre ≠ []
  prevCursor : page.prevCursor.isSome = true ↔ pre ≠ []
  prev : ∀ token ∈ page.prevCursor, ∃ page',
    m.fetch (pageRequest sorting limit (.prevCursor m.ext m.errorText token)) = .ok page' ∧
      page'.data = pre.drop (pre.length - limit.toNat)

def Navigable (m : Method Row) (t : Table Row V) (sorting : SortingParams) (limit : UInt32)
    (page : CursorPage Row) : Prop :=
  ∃ pre post, NavigableAt m t sorting limit pre page post

/-- One row a page, and at least two rows ahead of the page. -/
def TwoAhead (t : Table Row V) (sorting : SortingParams) (limit : UInt32)
    (page : CursorPage Row) : Prop :=
  limit.toNat = 1 ∧ ∃ pre post,
    t.Sorted (sortKeys sorting.sorts false) (pre ++ page.data ++ post) ∧ 2 ≤ pre.length

/-! ### The invariant -/

/-- What the invariant says about a page between `pre` and `post`. -/
structure Placed (m : Method Row) (t : Table Row V) (sorting : SortingParams)
    (pre : List Row) (page : CursorPage Row) (post : List Row) : Prop where
  contiguous : t.Sorted (sortKeys sorting.sorts false) (pre ++ page.data ++ post)
  shows : Shows m t sorting.sorts pre page post
  nonempty : page.data = [] → pre = [] ∧ post = []

theorem Table.Sorted.unique {ks : SortKeys} {S S' : List Row} (h : t.Sorted ks S)
    (h' : t.Sorted ks S') : S' = S :=
  List.Perm.eq_of_pairwise (fun r r' _ _ hr hr' => absurd hr' (before_asymm r r' hr)) h'.2 h.2
    (h'.1.trans h.1.symm)

/-- The place of a page with rows is determined by its rows. -/
theorem place_unique {data pre pre' post post' : List Row} {ks : SortKeys}
    (h : t.Sorted ks (pre ++ data ++ post)) (h' : t.Sorted ks (pre' ++ data ++ post'))
    (hdata : data ≠ []) : pre' = pre ∧ post' = post := by
  classical
  obtain ⟨x, rest, rfl⟩ := List.exists_cons_of_ne_nil hdata
  rw [List.append_assoc, List.cons_append] at h h'
  have hsame := h.unique h'
  have hpre : pre' = pre := by
    have hahead := Seek.filter_eq_ahead before_asymm h.2 (fun y _ => decide_eq_true_iff)
    have hahead' := Seek.filter_eq_ahead before_asymm h'.2 (fun y _ => decide_eq_true_iff)
    rw [← hahead, ← hahead', hsame]
  subst hpre
  have hpost := List.append_cancel_left hsame
  simp only [List.cons.injEq, List.append_cancel_left_eq, true_and] at hpost
  exact ⟨rfl, hpost⟩

theorem Placed.nextRow {pre post : List Row} {page : CursorPage Row}
    (h : Placed m t sorting pre page post) (hpost : post ≠ []) :
    ∃ init x token, page.data = init ++ [x] ∧ page.nextCursor = some token ∧
      StandsFor m.ext t sorting.sorts token x := by
  have hdata : page.data ≠ [] := fun hnil => hpost (h.nonempty hnil).2
  obtain ⟨init, x, hx⟩ := List.eq_nil_or_concat' page.data |>.resolve_left hdata
  obtain ⟨token, htoken, hrow⟩ := h.shows.exists_nextCursor hpost hx
  exact ⟨init, x, token, hx, htoken, hrow⟩

theorem Placed.prevRow {pre post : List Row} {page : CursorPage Row}
    (h : Placed m t sorting pre page post) (hpre : pre ≠ []) :
    ∃ x rest token, page.data = x :: rest ∧ page.prevCursor = some token ∧
      StandsFor m.ext t sorting.sorts token x := by
  have hdata : page.data ≠ [] := fun hnil => hpre (h.nonempty hnil).1
  obtain ⟨x, rest, hx⟩ := List.exists_cons_of_ne_nil hdata
  obtain ⟨token, htoken, hrow⟩ := h.shows.exists_prevCursor hpre hx
  exact ⟨x, rest, token, hx, htoken, hrow⟩

section Steps

variable {pre post : List Row} {page : CursorPage Row} {token : String}

/-- Following `next_cursor`. -/
theorem Placed.next_step (h : Pageable m t sorting limit q s)
    (hplaced : Placed m t sorting pre page post) (htoken : page.nextCursor = some token) :
    ∃ page', m.fetch (pageRequest sorting limit (.nextCursor m.ext m.errorText token)) = .ok page' ∧
      page'.data = post.take limit.toNat ∧
      Placed m t sorting (pre ++ page.data) page' (post.drop limit.toNat) := by
  have hpost : post ≠ [] := by
    rintro rfl
    rw [hplaced.shows.nextCursor_eq_none] at htoken
    cases htoken
  obtain ⟨init, x, token', hx, htoken', hrow⟩ := hplaced.nextRow hpost
  obtain rfl := Option.some.inj (htoken.symm.trans htoken')
  have hS : t.Sorted (sortKeys sorting.sorts false) ((pre ++ init) ++ x :: post) := by
    simpa [hx] using hplaced.contiguous
  obtain ⟨page', hfetch, hdata, hshows⟩ := h.fetch_nextCursor hS hrow
  refine ⟨page', hfetch, hdata, ?_, ?_, ?_⟩
  · simpa [hdata] using hplaced.contiguous
  · simpa [hx] using hshows
  · intro hnil
    have hlimit := h.limit_pos
    have hlength := List.length_pos_iff.mpr hpost
    rw [hdata, ← List.length_eq_zero_iff, List.length_take] at hnil
    omega

/-- Following `prev_cursor` gives the right rows; with one row a page and two
rows ahead the new page is as good as the old one. -/
theorem Placed.prev_step (h : Pageable m t sorting limit q s)
    (hplaced : Placed m t sorting pre page post) (htoken : page.prevCursor = some token) :
    ∃ page' cursor,
      m.fetch (pageRequest sorting limit (.prevCursor m.ext m.errorText token)) = .ok page' ∧
      isBackward cursor = true ∧
      NewPage m t sorting.sorts limit.toNat cursor (pre.reverse.take (limit.toNat + 1)) page' ∧
      (limit.toNat = 1 → 2 ≤ pre.length →
        Placed m t sorting pre.dropLast page' (page.data ++ post)) := by
  have hpre : pre ≠ [] := by
    rintro rfl
    rw [hplaced.shows.prevCursor_eq_none] at htoken
    cases htoken
  obtain ⟨x, rest, token', hx, htoken', hrow⟩ := hplaced.prevRow hpre
  obtain rfl := Option.some.inj (htoken.symm.trans htoken')
  have hS : t.Sorted (sortKeys sorting.sorts false) (pre ++ x :: (rest ++ post)) := by
    simpa [hx] using hplaced.contiguous
  obtain ⟨page', cursor, hfetch, hbackward, hcursor, hpage⟩ := h.fetch_prevCursor hS hrow
  refine ⟨page', cursor, hfetch, hbackward, hpage, fun hone htwo => ?_⟩
  have hdata := hpage.backward_data hbackward
  rw [hone] at hpage hdata
  refine ⟨?_, hpage.backward_one hbackward hcursor htwo (by simp [hx]), ?_⟩
  · have hsplit : pre.dropLast ++ page'.data = pre := by
      rw [hdata, List.dropLast_eq_take, List.take_append_drop]
    rw [hsplit, ← List.append_assoc]
    exact hplaced.contiguous
  · intro hnil
    rw [hdata, ← List.length_eq_zero_iff, List.length_drop] at hnil
    omega

/-- A page in its place is navigable. -/
theorem Placed.navigableAt (h : Pageable m t sorting limit q s)
    (hplaced : Placed m t sorting pre page post) :
    NavigableAt m t sorting limit pre page post where
  contiguous := hplaced.contiguous
  hasNext := by simp [hplaced.shows.hasNext]
  hasPrev := by simp [hplaced.shows.hasPrev]
  nextCursor := by
    constructor
    · intro hsome
      rintro rfl
      rw [hplaced.shows.nextCursor_eq_none] at hsome
      cases hsome
    · intro hpost
      obtain ⟨_, _, token, _, htoken, _⟩ := hplaced.nextRow hpost
      rw [htoken]
      rfl
  prevCursor := by
    constructor
    · intro hsome
      rintro rfl
      rw [hplaced.shows.prevCursor_eq_none] at hsome
      cases hsome
    · intro hpre
      obtain ⟨_, _, token, _, htoken, _⟩ := hplaced.prevRow hpre
      rw [htoken]
      rfl
  next := by
    intro token htoken
    obtain ⟨page', hfetch, hdata, -⟩ := hplaced.next_step h htoken
    exact ⟨page', hfetch, hdata⟩
  prev := by
    intro token htoken
    obtain ⟨page', cursor, hfetch, hbackward, hpage, -⟩ := hplaced.prev_step h htoken
    exact ⟨page', hfetch, hpage.backward_data hbackward⟩

end Steps

/-- Every page of a run whose steps backwards start with two rows ahead of the
page, one row a page, stands in its place. -/
theorem placed_of_reached (h : Pageable m t sorting limit q s) {page : CursorPage Row}
    (hreached : Reached m sorting limit (TwoAhead t sorting limit) page) :
    ∃ pre post, Placed m t sorting pre page post := by
  induction hreached with
  | first hfetch =>
      obtain ⟨S, hS⟩ := h.keyed.exists_sorted
      obtain ⟨page', hfetch', hdata, hshows⟩ := h.fetch_firstPage hS
      obtain rfl := Except.ok.inj (hfetch'.symm.trans hfetch)
      refine ⟨[], S.drop limit.toNat, ?_, hshows, ?_⟩
      · simpa [hdata] using hS
      · intro hnil
        have hlimit := h.limit_pos
        rw [hdata, ← List.length_eq_zero_iff, List.length_take] at hnil
        refine ⟨rfl, ?_⟩
        rw [← List.length_eq_zero_iff, List.length_drop]
        omega
  | next _ htoken hfetch ih =>
      obtain ⟨pre, post, hplaced⟩ := ih
      obtain ⟨page', hfetch', -, hplaced'⟩ := hplaced.next_step h htoken
      obtain rfl := Except.ok.inj (hfetch'.symm.trans hfetch)
      exact ⟨_, _, hplaced'⟩
  | @prev page token page'' _ hback htoken hfetch ih =>
      obtain ⟨pre, post, hplaced⟩ := ih
      obtain ⟨hone, pre', post', hsorted, htwo⟩ := hback
      have hdata : page.data ≠ [] := by
        intro hnil
        obtain ⟨rfl, rfl⟩ := hplaced.nonempty hnil
        rw [hplaced.shows.prevCursor_eq_none] at htoken
        cases htoken
      obtain ⟨rfl, rfl⟩ := place_unique hplaced.contiguous hsorted hdata
      obtain ⟨page', _, hfetch', -, -, hplaced'⟩ := hplaced.prev_step h htoken
      obtain rfl := Except.ok.inj (hfetch'.symm.trans hfetch)
      exact ⟨_, _, hplaced' hone htwo⟩

/-! ### Exactness -/

/-- A step backwards from a page in its place ends on a navigable page only
with one row a page and two rows ahead. -/
theorem Placed.two_of_navigable (h : Pageable m t sorting limit q s) {pre post : List Row}
    {page page' : CursorPage Row} {token : String} (hplaced : Placed m t sorting pre page post)
    (htoken : page.prevCursor = some token)
    (hfetch : m.fetch (pageRequest sorting limit (.prevCursor m.ext m.errorText token)) = .ok page')
    (hnavigable : Navigable m t sorting limit page') : limit.toNat = 1 ∧ 2 ≤ pre.length := by
  have hpre : pre ≠ [] := by
    rintro rfl
    rw [hplaced.shows.prevCursor_eq_none] at htoken
    cases htoken
  have hlimit := h.limit_pos
  have hlength := List.length_pos_iff.mpr hpre
  obtain ⟨page'', cursor, hfetch', hbackward, hpage, -⟩ := hplaced.prev_step h htoken
  obtain rfl := Except.ok.inj (hfetch'.symm.trans hfetch)
  have hdata := hpage.backward_data hbackward
  have hcontiguous : t.Sorted (sortKeys sorting.sorts false)
      (pre.take (pre.length - limit.toNat) ++ page''.data ++ (page.data ++ post)) := by
    rw [hdata, List.take_append_drop, ← List.append_assoc]
    exact hplaced.contiguous
  have hrows : page''.data ≠ [] := by
    intro hnil
    rw [hdata, ← List.length_eq_zero_iff, List.length_drop] at hnil
    omega
  obtain ⟨first, rest, hfirst⟩ := List.exists_cons_of_ne_nil hrows
  obtain ⟨pre', post', hat⟩ := hnavigable
  obtain ⟨rfl, rfl⟩ := place_unique hcontiguous hat.contiguous hrows
  -- rows follow, so the page needs a token; it stands for the first row
  have hbehind : page.data ++ post ≠ [] := by
    have hold : page.data ≠ [] := fun hnil => hpre (hplaced.nonempty hnil).1
    simp [hold]
  obtain ⟨next, hnext⟩ := Option.isSome_iff_exists.mp (hat.nextCursor.mpr hbehind)
  obtain ⟨hmore, hrow⟩ := hpage.backward_next hbackward hfirst hnext
  refine ⟨?_, by omega⟩
  by_contra hne
  -- with a second row on the page, following the token comes back to it
  have hsecond : rest ≠ [] := by
    have hcount : page''.data.length = limit.toNat := by
      rw [hdata, List.length_drop]
      omega
    rw [hfirst, List.length_cons] at hcount
    rintro rfl
    exact hne (by simpa using hcount.symm)
  obtain ⟨second, others, rfl⟩ := List.exists_cons_of_ne_nil hsecond
  obtain ⟨z, zs, hz⟩ := List.exists_cons_of_ne_nil hbehind
  have hS : t.Sorted (sortKeys sorting.sorts false)
      (pre.take (pre.length - limit.toNat) ++ first :: (second :: others ++ z :: zs)) := by
    simpa [hfirst, hz] using hcontiguous
  obtain ⟨_, hfetched, hreturned, -⟩ := h.fetch_nextCursor hS hrow
  obtain ⟨_, hfetched', hclaimed⟩ := hat.next next hnext
  obtain rfl := Except.ok.inj (hfetched'.symm.trans hfetched)
  obtain ⟨k, hk⟩ : ∃ k, limit.toNat = k + 1 := ⟨limit.toNat - 1, by omega⟩
  rw [hreturned, hz, hk, List.cons_append, List.take_succ_cons, List.take_succ_cons] at hclaimed
  have hsame : second = z := (List.cons.inj hclaimed).1
  have hbefore : t.Before (sortKeys sorting.sorts false) second z := by
    have hpairs := (List.pairwise_append.mp hS.2).2.1
    rw [List.pairwise_cons, List.cons_append, List.pairwise_cons] at hpairs
    exact hpairs.2.1 z (by simp)
  rw [hsame] at hbefore
  exact before_asymm z z hbefore hbefore

/-- Every page of such a run is navigable, and a further step backwards ends on
a navigable page exactly when it starts with two rows ahead, one row a page. -/
theorem navigable_of_reached (h : Pageable m t sorting limit q s) (page : CursorPage Row)
    (hreached : Reached m sorting limit (TwoAhead t sorting limit) page) :
    Navigable m t sorting limit page ∧
      ∀ token page', page.prevCursor = some token →
        m.fetch (pageRequest sorting limit (.prevCursor m.ext m.errorText token)) = .ok page' →
        (Navigable m t sorting limit page' ↔ TwoAhead t sorting limit page) := by
  obtain ⟨pre, post, hplaced⟩ := placed_of_reached h hreached
  refine ⟨⟨pre, post, hplaced.navigableAt h⟩, fun token page' htoken hfetch => ⟨fun hnavigable => ?_,
    fun hback => ?_⟩⟩
  · obtain ⟨hone, htwo⟩ := hplaced.two_of_navigable h htoken hfetch hnavigable
    exact ⟨hone, pre, post, hplaced.contiguous, htwo⟩
  · obtain ⟨pre', post', hplaced'⟩ := placed_of_reached h (.prev hreached hback htoken hfetch)
    exact ⟨pre', post', hplaced'.navigableAt h⟩

/-! ### Three rows, one a page -/

section Example

open Example

/-- Back on the first page, there is no token for the second one. -/
theorem navigation_lost :
    Pageable listUsers ids byId 1 allUsers users ∧
      ∃ page, Reached listUsers byId 1 (fun _ => True) page ∧
        ¬Navigable listUsers ids byId 1 page := by
  have hfirst : listUsers.fetch (pageRequest byId 1 .firstPage) =
      .ok ⟨[1], 1, true, false, some "1", none⟩ := rfl
  have hsecond : listUsers.fetch (pageRequest byId 1
      (.nextCursor listUsers.ext listUsers.errorText "1")) =
      .ok ⟨[2], 1, true, true, some "2", some "2"⟩ := rfl
  have hback : listUsers.fetch (pageRequest byId 1
      (.prevCursor listUsers.ext listUsers.errorText "2")) =
      .ok ⟨[1], 1, true, false, none, some "1"⟩ := rfl
  refine ⟨pageable_listUsers, _, .prev (.next (.first hfirst) rfl hsecond) trivial rfl hback, ?_⟩
  rintro ⟨pre, post, hat⟩
  have hrows : post ≠ [] := hat.hasNext.mp rfl
  have htoken := hat.nextCursor.mpr hrows
  cases htoken

/-- From the third page back to the second one. -/
theorem navigation_kept :
    ∃ page, page.data = [2] ∧ page.hasNext = true ∧ page.hasPrev = true ∧
      Navigable listUsers ids byId 1 page := by
  have hfirst : listUsers.fetch (pageRequest byId 1 .firstPage) =
      .ok ⟨[1], 1, true, false, some "1", none⟩ := rfl
  have hsecond : listUsers.fetch (pageRequest byId 1
      (.nextCursor listUsers.ext listUsers.errorText "1")) =
      .ok ⟨[2], 1, true, true, some "2", some "2"⟩ := rfl
  have hthird : listUsers.fetch (pageRequest byId 1
      (.nextCursor listUsers.ext listUsers.errorText "2")) =
      .ok ⟨[3], 1, false, true, none, some "3"⟩ := rfl
  have hback : listUsers.fetch (pageRequest byId 1
      (.prevCursor listUsers.ext listUsers.errorText "3")) =
      .ok ⟨[2], 1, true, true, some "2", some "2"⟩ := rfl
  have htwo : TwoAhead ids byId 1 ⟨[3], 1, false, true, none, some "3"⟩ :=
    ⟨rfl, [1, 2], [], sorted_ids, by decide⟩
  exact ⟨_, rfl, rfl, rfl, (navigable_of_reached pageable_listUsers _
    (.prev (.next (.next (.first hfirst) rfl hsecond) rfl hthird) htwo rfl hback)).1⟩

end Example

end SqlxData.Paging
