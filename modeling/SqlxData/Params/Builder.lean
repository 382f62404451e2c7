import SqlxData.Params.Params
import Mathlib.Algebra.Group.Int.Defs
import Mathlib.Algebra.GroupWithZero.Nat

/-!
`ParamsBuilder`: the request parameters are put together by calls in any
order. Three of their fields belong together: the pagination names a page, limit
and offset are the window of the SQL statement. Eight operations write some of
the three.
-/

namespace SqlxData

def saturatingSub (a b : UInt32) : UInt32 := if a < b then 0 else a - b

def saturatingMul (a b : UInt32) : UInt32 :=
  if a.toNat * b.toNat < 2 ^ 32 then a * b else 0xFFFFFFFF

/-! ### The sub-builders -/

namespace SerialParams

def default : SerialParams := ⟨1, 20⟩

def new (page perPage : UInt32) : SerialParams := ⟨max page 1, max perPage 1⟩

def limit (p : SerialParams) : UInt32 := p.pageSize

def offset (p : SerialParams) : UInt32 := saturatingMul (saturatingSub p.page 1) p.pageSize

end SerialParams

namespace SliceParams

def default : SliceParams := ⟨1, 20, true⟩

def new (page perPage : UInt32) : SliceParams := ⟨max page 1, max perPage 1, true⟩

def limit (p : SliceParams) : UInt32 := p.pageSize

def offset (p : SliceParams) : UInt32 := saturatingMul (saturatingSub p.page 1) p.pageSize

def withDisableTotalCount (p : SliceParams) (disable : Bool) : SliceParams :=
  { p with disableTotalCount := disable }

end SliceParams

inductive SliceCall
  | page (page perPage : UInt32)
  | enableTotalCount

def SliceCall.apply (slice : SliceParams) : SliceCall → SliceParams
  | .page p perPage => .new p perPage
  | .enableTotalCount => slice.withDisableTotalCount false

namespace SortingParams

def isEmpty (s : SortingParams) : Bool := s.sorts.isEmpty

def extendWith (s other : SortingParams) : SortingParams where
  sorts := s.sorts ++ other.sorts
  unsafeFields := s.unsafeFields ++ other.unsafeFields
  allowedColumns :=
    match s.allowedColumns with
    | none => other.allowedColumns
    | some columns => some columns

end SortingParams

/-! ### The calls -/

/-- A call of `ParamsBuilder`, up to the `done` of its sub-builder. The sort,
filter, search and cursor builders are given by what they hold then, the page
builders by their calls. -/
inductive ParamsCall
  | sort (sorts : SortingParams)
  | filter (filters : FilterParams)
  | search (search : SearchParams)
  | serial (pages : List (UInt32 × UInt32))
  | slice (calls : List SliceCall)
  | cursor (cursor : CursorParams)
  | limit (limit : UInt32)
  | offset (offset : UInt32)

/-- The value of `serial().page(..)...`. -/
def serialOf (pages : List (UInt32 × UInt32)) : SerialParams :=
  pages.foldl (fun _ p => .new p.1 p.2) .default

/-- The value of `slice().page(..)...`. -/
def sliceOf (calls : List SliceCall) : SliceParams := calls.foldl SliceCall.apply .default

namespace ParamsBuilder

def sortDone (params : Params) (sorts : SortingParams) : Params :=
  if sorts.isEmpty then params
  else
    { params with
      sortBy :=
        match params.sortBy with
        | some existing => some (existing.extendWith sorts)
        | none => some sorts }

def filterDone (params : Params) (filters : FilterParams) : Params :=
  { params with
    filters :=
      match params.filters with
      | some existing => some ⟨existing.filters ++ filters.filters⟩
      | none => some filters }

def searchDone (params : Params) (search : SearchParams) : Params :=
  if search.query.isEmpty then params else { params with search := some search }

def serialDone (params : Params) (serial : SerialParams) : Params :=
  { params with
    pagination := some (.serial serial)
    limit := some serial.limit
    offset := some serial.offset }

def sliceDone (params : Params) (slice : SliceParams) : Params :=
  { params with
    pagination := some (.slice slice)
    limit := some slice.limit
    offset := some slice.offset }

/-- The same in all three states of the cursor builder. -/
def cursorDone (params : Params) (cursor : CursorParams) : Params :=
  { params with pagination := some (.cursor cursor) }

def apply (params : Params) : ParamsCall → Params
  | .sort sorts => sortDone params sorts
  | .filter filters => filterDone params filters
  | .search search => searchDone params search
  | .serial pages => serialDone params (serialOf pages)
  | .slice calls => sliceDone params (sliceOf calls)
  | .cursor cursor => cursorDone params cursor
  | .limit limit => { params with limit := some limit }
  | .offset offset => { params with offset := some offset }

def build (calls : List ParamsCall) : Params := calls.foldl apply .default

end ParamsBuilder

/-! ### What a call writes -/

namespace ParamsCall

def pagination : ParamsCall → Option Pagination
  | .serial pages => some (.serial (serialOf pages))
  | .slice calls => some (.slice (sliceOf calls))
  | .cursor c => some (.cursor c)
  | _ => none

def limitWritten : ParamsCall → Option UInt32
  | .serial pages => some (serialOf pages).limit
  | .slice calls => some (sliceOf calls).limit
  | .limit n => some n
  | _ => none

def offsetWritten : ParamsCall → Option UInt32
  | .serial pages => some (serialOf pages).offset
  | .slice calls => some (sliceOf calls).offset
  | .offset n => some n
  | _ => none

end ParamsCall

/-- What the last of the calls that write something writes. -/
def lastWrite {α : Type} (f : ParamsCall → Option α) (calls : List ParamsCall) : Option α :=
  (calls.filterMap f).getLast?

section

variable {α : Type} {f : ParamsCall → Option α}

@[simp] theorem lastWrite_nil : lastWrite f [] = none := rfl

theorem lastWrite_cons (c : ParamsCall) (calls : List ParamsCall) :
    lastWrite f (c :: calls) = (lastWrite f calls).or (f c) := by
  unfold lastWrite
  cases hc : f c with
  | none => simp [hc]
  | some a =>
      rw [List.filterMap_cons_some hc]
      cases hcalls : calls.filterMap f with
      | nil => rfl
      | cons b bs => rw [List.getLast?_cons_cons, List.getLast?_eq_some_getLast (by simp)]; rfl

theorem lastWrite_append (calls calls' : List ParamsCall) :
    lastWrite f (calls ++ calls') = (lastWrite f calls').or (lastWrite f calls) := by
  induction calls with
  | nil => simp
  | cons c calls ih => rw [List.cons_append, lastWrite_cons, ih, lastWrite_cons, Option.or_assoc]

theorem lastWrite_eq_none_iff {calls : List ParamsCall} :
    lastWrite f calls = none ↔ ∀ c ∈ calls, f c = none := by
  simp [lastWrite]

/-- The last write is the write of a call behind which nothing is written. -/
theorem exists_of_lastWrite_eq_some {calls : List ParamsCall} {a : α}
    (h : lastWrite f calls = some a) :
    ∃ before c after, calls = before ++ c :: after ∧ f c = some a ∧ ∀ d ∈ after, f d = none := by
  induction calls with
  | nil => cases h
  | cons c calls ih =>
      rw [lastWrite_cons] at h
      cases hcalls : lastWrite f calls with
      | some b =>
          obtain ⟨before, d, after, rfl, hd, hafter⟩ := ih (by rw [hcalls]; rwa [hcalls] at h)
          exact ⟨c :: before, d, after, rfl, hd, hafter⟩
      | none =>
          rw [hcalls] at h
          exact ⟨[], c, calls, rfl, h, lastWrite_eq_none_iff.mp hcalls⟩

end

/-! A call writes what it writes and leaves the rest. -/

theorem apply_pagination (params : Params) (c : ParamsCall) :
    (ParamsBuilder.apply params c).pagination = c.pagination.or params.pagination := by
  cases c with
  | sort sorts => simp only [ParamsBuilder.apply, ParamsBuilder.sortDone]; split <;> rfl
  | search search => simp only [ParamsBuilder.apply, ParamsBuilder.searchDone]; split <;> rfl
  | _ => rfl

theorem apply_limit (params : Params) (c : ParamsCall) :
    (ParamsBuilder.apply params c).limit = c.limitWritten.or params.limit := by
  cases c with
  | sort sorts => simp only [ParamsBuilder.apply, ParamsBuilder.sortDone]; split <;> rfl
  | search search => simp only [ParamsBuilder.apply, ParamsBuilder.searchDone]; split <;> rfl
  | _ => rfl

theorem apply_offset (params : Params) (c : ParamsCall) :
    (ParamsBuilder.apply params c).offset = c.offsetWritten.or params.offset := by
  cases c with
  | sort sorts => simp only [ParamsBuilder.apply, ParamsBuilder.sortDone]; split <;> rfl
  | search search => simp only [ParamsBuilder.apply, ParamsBuilder.searchDone]; split <;> rfl
  | _ => rfl

/-- After a run the three fields hold the last writes. -/
theorem foldl_apply (calls : List ParamsCall) (params : Params) :
    (calls.foldl ParamsBuilder.apply params).pagination =
        (lastWrite ParamsCall.pagination calls).or params.pagination ∧
      (calls.foldl ParamsBuilder.apply params).limit =
        (lastWrite ParamsCall.limitWritten calls).or params.limit ∧
      (calls.foldl ParamsBuilder.apply params).offset =
        (lastWrite ParamsCall.offsetWritten calls).or params.offset := by
  induction calls generalizing params with
  | nil => simp
  | cons c calls ih =>
      obtain ⟨hpagination, hlimit, hoffset⟩ := ih (ParamsBuilder.apply params c)
      rw [List.foldl_cons, hpagination, hlimit, hoffset, apply_pagination, apply_limit,
        apply_offset]
      simp only [lastWrite_cons, Option.or_assoc, and_self]

theorem build_fields (calls : List ParamsCall) :
    (ParamsBuilder.build calls).pagination = lastWrite ParamsCall.pagination calls ∧
      (ParamsBuilder.build calls).limit = lastWrite ParamsCall.limitWritten calls ∧
      (ParamsBuilder.build calls).offset = lastWrite ParamsCall.offsetWritten calls := by
  simpa [ParamsBuilder.build, Params.default] using foldl_apply calls .default

/-! ### The window -/

/-- The limit and offset of the page a response reports; a cursor page has
none. -/
def Pagination.window : Pagination → Option (UInt32 × UInt32)
  | .serial p => some (p.limit, p.offset)
  | .slice p => some (p.limit, p.offset)
  | .cursor _ => none

/-- The window of the statement is the page of the pagination, and a cursor
page starts at its cursor. -/
def Windowed (params : Params) : Prop :=
  ∀ p ∈ params.pagination,
    match p.window with
    | some (limit, offset) => params.limit = some limit ∧ params.offset = some offset
    | none => params.offset = none

/-- Behind the last pagination call, the last `limit` and `offset` calls name
the page again; before or after a cursor nothing writes an offset. -/
def KeepsWindow (calls : List ParamsCall) : Prop :=
  ∀ before c after p, calls = before ++ c :: after → c.pagination = some p →
    (∀ d ∈ after, d.pagination = none) →
      match p.window with
      | some (limit, offset) =>
          (∀ n ∈ lastWrite ParamsCall.limitWritten after, n = limit) ∧
            ∀ n ∈ lastWrite ParamsCall.offsetWritten after, n = offset
      | none => ∀ d ∈ calls, d.offsetWritten = none

/-- A page builder writes its own window. -/
theorem written_of_window {c : ParamsCall} {p : Pagination} (hc : c.pagination = some p)
    {limit offset : UInt32} (hp : p.window = some (limit, offset)) :
    c.limitWritten = some limit ∧ c.offsetWritten = some offset := by
  cases c <;> cases hc <;> cases hp <;> exact ⟨rfl, rfl⟩

theorem or_eq_some_iff_forall {x : Option UInt32} {a : UInt32} :
    x.or (some a) = some a ↔ ∀ n ∈ x, n = a := by
  cases x with
  | none => simp
  | some b => simp

/-- A run of calls ends with the window of its pagination exactly when it
keeps the window. -/
theorem windowed_iff (calls : List ParamsCall) :
    Windowed (ParamsBuilder.build calls) ↔ KeepsWindow calls := by
  obtain ⟨hpagination, hlimit, hoffset⟩ := build_fields calls
  -- What the run has written, seen from a call behind which no other sets a pagination.
  have hstep (before : List ParamsCall) (c : ParamsCall) (after : List ParamsCall) (p : Pagination)
      (hcalls : calls = before ++ c :: after) (hc : c.pagination = some p) :
      (match p.window with
        | some (limit, offset) =>
            (ParamsBuilder.build calls).limit = some limit ∧
              (ParamsBuilder.build calls).offset = some offset
        | none => (ParamsBuilder.build calls).offset = none) ↔
      match p.window with
      | some (limit, offset) =>
          (∀ n ∈ lastWrite ParamsCall.limitWritten after, n = limit) ∧
            ∀ n ∈ lastWrite ParamsCall.offsetWritten after, n = offset
      | none => ∀ d ∈ calls, d.offsetWritten = none := by
    cases hwindow : p.window with
    | none =>
        dsimp only
        rw [hoffset, lastWrite_eq_none_iff]
    | some window =>
        obtain ⟨limit, offset⟩ := window
        obtain ⟨hl, ho⟩ := written_of_window hc hwindow
        dsimp only
        rw [hlimit, hoffset, hcalls, lastWrite_append, lastWrite_append, lastWrite_cons,
          lastWrite_cons, hl, ho]
        simp only [Option.or_assoc, Option.some_or, or_eq_some_iff_forall]
  constructor
  · intro h before c after p hcalls hc hafter
    have hlast : lastWrite ParamsCall.pagination calls = some p := by
      rw [hcalls, lastWrite_append, lastWrite_cons, lastWrite_eq_none_iff.mpr hafter, hc]
      rfl
    exact (hstep before c after p hcalls hc).mp (h p (by rw [hpagination]; exact hlast))
  · intro h p hp
    rw [hpagination] at hp
    obtain ⟨before, c, after, hcalls, hc, hafter⟩ := exists_of_lastWrite_eq_some hp
    exact (hstep before c after p hcalls hc).mpr (h before c after p hcalls hc hafter)

/-- A later `limit` call leaves the page of a serial pagination, and an offset
stays in front of a cursor. -/
theorem window_lost :
    ¬Windowed (ParamsBuilder.build [.serial [(2, 10)], .limit 50]) ∧
      ¬Windowed (ParamsBuilder.build [.offset 40, .cursor .default]) := by
  constructor
  · intro h
    have hwindow := (h _ rfl).1
    exact absurd hwindow (by decide)
  · intro h
    have hoffset : some (40 : UInt32) = none := h _ rfl
    cases hoffset

end SqlxData
