import SqlxData.Paging.FetchPage

/-!
The forward walk: the first page, then the page of every `next_cursor` until
there is none. It ends, and its pages are the sorted table cut into pieces.
-/

namespace SqlxData.Paging

open SqlxData.Sqlparser SqlxData.Dynamic

variable {Row V : Type} {m : Method Row} {sorting : SortingParams} {limit : UInt32}

/-- The pages fetched from a cursor on. -/
inductive Walk (m : Method Row) (sorting : SortingParams) (limit : UInt32) :
    CursorParams → List (CursorPage Row) → Prop
  | last {cursor page} : m.fetch (pageRequest sorting limit cursor) = .ok page →
      page.nextCursor = none → Walk m sorting limit cursor [page]
  | more {cursor page token pages} : m.fetch (pageRequest sorting limit cursor) = .ok page →
      page.nextCursor = some token →
      Walk m sorting limit (.nextCursor m.ext m.errorText token) pages →
      Walk m sorting limit cursor (page :: pages)

/-- There is only one walk from a cursor. -/
theorem Walk.unique {cursor : CursorParams} {pages pages' : List (CursorPage Row)}
    (h : Walk m sorting limit cursor pages) (h' : Walk m sorting limit cursor pages') :
    pages' = pages := by
  induction h generalizing pages' with
  | last hfetch hnone =>
      cases h' with
      | last hfetch' _ => rw [Except.ok.inj (hfetch'.symm.trans hfetch)]
      | more hfetch' hsome _ =>
          rw [Except.ok.inj (hfetch'.symm.trans hfetch), hnone] at hsome
          cases hsome
  | more hfetch hsome _ ih =>
      cases h' with
      | last hfetch' hnone =>
          rw [Except.ok.inj (hfetch'.symm.trans hfetch), hsome] at hnone
          cases hnone
      | more hfetch' hsome' hrest =>
          obtain rfl := Except.ok.inj (hfetch'.symm.trans hfetch)
          obtain rfl := Option.some.inj (hsome'.symm.trans hsome)
          rw [ih hrest]

def fetchedRows (pages : List (CursorPage Row)) : List Row := pages.flatMap (·.data)

variable [LinearOrder V] {t : Table Row V} {q : Query} {s : Select}

/-- From a page on, the walk fetches the rows behind it. -/
theorem Pageable.walk_from (h : Pageable m t sorting limit q s) {cursor : CursorParams}
    {page : CursorPage Row} {pre post : List Row}
    (hS : t.Sorted (sortKeys sorting.sorts false) (pre ++ page.data ++ post))
    (hfetch : m.fetch (pageRequest sorting limit cursor) = .ok page)
    (hshows : Shows m t sorting.sorts pre page post)
    (hfull : post ≠ [] → page.data.length = limit.toNat) :
    ∃ pages, Walk m sorting limit cursor (page :: pages) ∧ fetchedRows pages = post ∧
      ∀ page' ∈ (page :: pages).dropLast, page'.data.length = limit.toNat := by
  have hlimit := h.limit_pos
  -- fewer rows are left behind every page
  induction hn : post.length using Nat.strongRecOn generalizing cursor page pre post with
  | _ n ih =>
      by_cases hpost : post = []
      · subst hpost
        exact ⟨[], .last hfetch hshows.nextCursor_eq_none, rfl, by simp⟩
      have hlength := hfull hpost
      have hdata : page.data ≠ [] := by
        intro hnil
        rw [hnil] at hlength
        simp at hlength
        omega
      obtain ⟨init, y, hy⟩ := List.eq_nil_or_concat' page.data |>.resolve_left hdata
      obtain ⟨token, htoken, hrow⟩ := hshows.exists_nextCursor hpost hy
      have hsplit : t.Sorted (sortKeys sorting.sorts false) ((pre ++ init) ++ y :: post) := by
        simpa [hy] using hS
      obtain ⟨page', hfetch', hdata', hshows'⟩ := h.fetch_nextCursor hsplit hrow
      have hS' : t.Sorted (sortKeys sorting.sorts false)
          (((pre ++ init) ++ [y]) ++ page'.data ++ post.drop limit.toNat) := by
        simpa [hdata'] using hsplit
      have hfull' : post.drop limit.toNat ≠ [] → page'.data.length = limit.toNat := by
        intro hmore
        rw [hdata', List.length_take]
        have := List.length_pos_iff.mpr hmore
        rw [List.length_drop] at this
        omega
      have hshorter : (post.drop limit.toNat).length < n := by
        have := List.length_pos_iff.mpr hpost
        rw [List.length_drop]
        omega
      obtain ⟨pages, hwalk, hrows, hlengths⟩ := ih _ hshorter hS' hfetch' hshows' hfull' rfl
      refine ⟨page' :: pages, .more hfetch htoken hwalk, ?_, ?_⟩
      · rw [fetchedRows, List.flatMap_cons, ← fetchedRows, hrows, hdata', List.take_append_drop]
      · intro p hp
        rcases List.mem_cons.mp hp with rfl | hp
        · exact hlength
        · exact hlengths p hp

/-- The walk from the first page ends, with one list of pages. They hold every
row once, in the order of the sort list, and all but the last are full. -/
theorem forward_walk_complete (h : Pageable m t sorting limit q s) :
    ∃ pages, Walk m sorting limit .firstPage pages ∧
      (∀ pages', Walk m sorting limit .firstPage pages' → pages' = pages) ∧
      (fetchedRows pages).Perm t.rows ∧
      (fetchedRows pages).Pairwise (t.Before (sortKeys sorting.sorts false)) ∧
      ∀ page ∈ pages.dropLast, page.data.length = limit.toNat := by
  obtain ⟨S, hS⟩ := h.keyed.exists_sorted
  obtain ⟨page, hfetch, hdata, hshows⟩ := h.fetch_firstPage hS
  have hsplit : [] ++ page.data ++ S.drop limit.toNat = S := by
    rw [hdata, List.nil_append, List.take_append_drop]
  have hfull : S.drop limit.toNat ≠ [] → page.data.length = limit.toNat := by
    intro hmore
    have := List.length_pos_iff.mpr hmore
    rw [List.length_drop] at this
    rw [hdata, List.length_take]
    omega
  obtain ⟨pages, hwalk, hrows, hlengths⟩ :=
    h.walk_from (hsplit.symm ▸ hS) hfetch hshows hfull
  have hall : fetchedRows (page :: pages) = S := by
    rw [fetchedRows, List.flatMap_cons, ← fetchedRows, hrows]
    exact hsplit
  rw [← hall] at hS
  exact ⟨_, hwalk, fun pages' => hwalk.unique, hS.1, hS.2, hlengths⟩

/-- Walking through three rows, one a page. -/
theorem forward_walk_listUsers :
    ∃ pages, Walk Example.listUsers Example.byId 1 .firstPage pages ∧
      (∀ pages', Walk Example.listUsers Example.byId 1 .firstPage pages' → pages' = pages) ∧
      (fetchedRows pages).Perm [1, 2, 3] ∧
      (fetchedRows pages).Pairwise (Example.ids.Before (sortKeys Example.byId.sorts false)) ∧
      ∀ page ∈ pages.dropLast, page.data.length = 1 :=
  forward_walk_complete Example.pageable_listUsers

end SqlxData.Paging
