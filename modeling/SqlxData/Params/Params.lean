import SqlxData.Params.Filter

/-!
The request parameters of a query method: filters, search, sorting, limit,
offset and the pagination kind.
-/

namespace SqlxData

/-! ### Sorting -/

inductive SortDirection
  | asc
  | desc
  deriving DecidableEq, Repr

def SortDirection.isAsc : SortDirection → Bool
  | .asc => true
  | .desc => false

inductive NullOrdering
  | first
  | last
  | default
  deriving DecidableEq, Repr

def NullOrdering.asBoolOption : NullOrdering → Option Bool
  | .first => some true
  | .last => some false
  | .default => none

inductive SortSafety
  | safe
  | unchecked
  deriving DecidableEq, Repr

/-- `Sort` in the source, a reserved word here. -/
structure SortField where
  field : String
  direction : SortDirection
  nulls : NullOrdering
  safetyType : SortSafety
  deriving DecidableEq

def SortField.isAsc (s : SortField) : Bool := s.direction.isAsc

def SortField.nullsAsBool (s : SortField) : Option Bool := s.nulls.asBoolOption

structure SortingParams where
  sorts : List SortField
  unsafeFields : List String
  allowedColumns : Option (List String)
  deriving DecidableEq

/-! ### Pagination -/

structure SerialParams where
  page : UInt32
  pageSize : UInt32
  deriving DecidableEq

structure SliceParams where
  page : UInt32
  pageSize : UInt32
  disableTotalCount : Bool
  deriving DecidableEq

inductive CursorDirection
  | after
  | before
  deriving DecidableEq, Repr

structure CursorParams where
  direction : Option CursorDirection
  values : List FilterValue
  error : Option String
  deriving DecidableEq

namespace CursorParams

/-- `CursorParams::default`, the cursor of a first page. -/
def default : CursorParams := ⟨none, [], none⟩

def fromValues (values : List FilterValue) (direction : CursorDirection) : CursorParams :=
  ⟨some direction, values, none⟩

def withError (direction : CursorDirection) (error : String) : CursorParams :=
  ⟨some direction, [], some error⟩

def isEmpty (c : CursorParams) : Bool := c.values.isEmpty

def len (c : CursorParams) : ℕ := c.values.length

def hasError (c : CursorParams) : Bool := c.error.isSome

end CursorParams

inductive Pagination
  | serial (serial : SerialParams)
  | slice (slice : SliceParams)
  | cursor (cursor : CursorParams)
  deriving DecidableEq

structure Params where
  filters : Option FilterParams
  search : Option SearchParams
  sortBy : Option SortingParams
  limit : Option UInt32
  offset : Option UInt32
  pagination : Option Pagination
  deriving DecidableEq

namespace Params

def default : Params := ⟨none, none, none, none, none, none⟩

def isEmpty (p : Params) : Bool :=
  p.filters.isNone && p.search.isNone && p.sortBy.isNone && p.pagination.isNone &&
    p.limit.isNone && p.offset.isNone

/-- 1 where one row more than the page is fetched to see whether there is a
next page. -/
def limitPlusOne (p : Params) : UInt32 :=
  match p.pagination with
  | some (.slice _) => 1
  | some (.cursor _) => 1
  | some (.serial _) => 0
  | none => 0

end Params

end SqlxData
