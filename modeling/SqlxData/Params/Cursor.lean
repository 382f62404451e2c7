import SqlxData.Params.Params

/-!
Cursor tokens and the cursor page built from the fetched rows. The row type
supplies the whitelist, the encoder and the decoder.
-/

namespace SqlxData

inductive CursorValue
  | int (i : Int64)
  | uint (u : UInt64)
  /-- An `f64`, given by its bits. -/
  | float (bits : UInt64)
  | bool (b : Bool)
  | string (s : String)
  deriving DecidableEq, Repr

structure CursorEntry where
  value : CursorValue
  deriving DecidableEq

/-- The client-facing cursor that is encoded into a token. -/
structure CursorData where
  entries : List CursorEntry
  version : Option UInt8
  fingerprint : Option UInt64
  deriving DecidableEq

def CursorData.newMulti (entries : List CursorEntry) : CursorData := ⟨entries, none, none⟩

inductive CursorError
  | invalidField (field : String)
  | emptyData
  | encodeError (msg : String)
  | decodeError (msg : String)
  deriving DecidableEq, Repr

/-- What the user implements for a row type. -/
structure CursorSecureExtract (T : Type) where
  extractWhitelistedFields : T → List String → Except CursorError (List CursorValue)
  encode : CursorData → Except CursorError String
  decode : String → Except CursorError (List FilterValue)

variable {T : Type}

/-! ### Tokens -/

namespace CursorParams

/-- The cursor data of one item of a page, when there is a page to link to. -/
def generateCursor (ext : CursorSecureExtract T) (data : List T) (hasMore : Bool)
    (sortingParams : SortingParams) (getItem : List T → Option T) :
    Except CursorError (Option CursorData) :=
  if !hasMore || data.isEmpty then
    .ok none
  else
    let fields := sortingParams.sorts.map (·.field)
    if fields.isEmpty then
      .error (.invalidField "Cursor pagination requires ORDER BY fields")
    else
      match getItem data with
      | none => .error .emptyData
      | some item => do
          let values ← ext.extractWhitelistedFields item fields
          if values.length ≠ fields.length then
            .error (.invalidField "Cursor fields mismatch with sorting params")
          else
            .ok (some (CursorData.newMulti (values.map CursorEntry.mk)))

def encodeCursor (ext : CursorSecureExtract T) :
    Option CursorData → Except CursorError (Option String)
  | some c => (ext.encode c).map some
  | none => .ok none

def generateNextCursor (ext : CursorSecureExtract T) (data : List T) (hasNext : Bool)
    (sortingParams : SortingParams) : Except CursorError (Option String) := do
  let cursor ← generateCursor ext data hasNext sortingParams List.getLast?
  encodeCursor ext cursor

def generatePrevCursor (ext : CursorSecureExtract T) (data : List T) (hasPrev : Bool)
    (sortingParams : SortingParams) : Except CursorError (Option String) := do
  let cursor ← generateCursor ext data hasPrev sortingParams List.head?
  encodeCursor ext cursor

/-! ### Cursor builder -/

/-- The cursor of `cursor().first_page()`. -/
def firstPage : CursorParams := .default

def decoded (ext : CursorSecureExtract T) (token : String) (direction : CursorDirection)
    (errorText : CursorError → String) : CursorParams :=
  match ext.decode token with
  | .ok values => .fromValues values direction
  | .error e => .withError direction (errorText e)

/-- The cursor of `cursor().next_cursor(token)`. -/
def nextCursor (ext : CursorSecureExtract T) (errorText : CursorError → String)
    (token : String) : CursorParams :=
  decoded ext token .after errorText

/-- The cursor of `cursor().prev_cursor(token)`. -/
def prevCursor (ext : CursorSecureExtract T) (errorText : CursorError → String)
    (token : String) : CursorParams :=
  decoded ext token .before errorText

end CursorParams

/-! ### The cursor page -/

structure CursorPage (T : Type) where
  data : List T
  perPage : UInt32
  hasNext : Bool
  hasPrev : Bool
  nextCursor : Option String
  prevCursor : Option String

namespace CursorPage

def defaultLimit : UInt32 := 20

def pageSize (params : Params) : UInt32 := max (params.limit.getD defaultLimit) 1

def generateCursors (ext : CursorSecureExtract T) (data : List T)
    (hasMorePages hadPreviousCursor : Bool) (sortingParams : SortingParams) :
    Except CursorError (Option String × Option String) :=
  if data.isEmpty then
    .ok (none, none)
  else do
    let next ←
      if hasMorePages then
        CursorParams.generateNextCursor ext data hasMorePages sortingParams
      else
        .ok none
    let prev ←
      if hadPreviousCursor then
        CursorParams.generatePrevCursor ext data hadPreviousCursor sortingParams
      else
        .ok none
    .ok (next, prev)

/-- `Cursor::new`: the page made of the fetched rows. -/
def new (ext : CursorSecureExtract T) (data : List T) (params : Params) :
    Except CursorError (CursorPage T) :=
  match params.sortBy with
  | none => .error (.decodeError "Cursor pagination requires ORDER BY (sort_by)")
  | some sort =>
      match params.pagination with
      | some (.cursor cursor) => do
          let isBackward : Bool := cursor.direction = some .before
          let requestedLimit := pageSize params
          let hasMore : Bool := decide (data.length > requestedLimit.toNat)
          let data := if hasMore then data.take requestedLimit.toNat else data
          let hadPrev := !cursor.isEmpty
          let (nextCursor, prevCursor) ← generateCursors ext data hasMore hadPrev sort
          .ok {
            data := if isBackward then data.reverse else data
            perPage := requestedLimit
            hasNext := if isBackward then hadPrev else hasMore
            hasPrev := if isBackward then hasMore else hadPrev
            nextCursor := nextCursor
            prevCursor := prevCursor }
      | _ => .error (.decodeError "Cursor params is not present")

end CursorPage

end SqlxData
