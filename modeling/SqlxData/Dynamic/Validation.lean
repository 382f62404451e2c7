import SqlxData.Dynamic.Builder
import SqlxData.Params.Sorting

/-!
`validate_fields`: what every generated method checks before it builds its
statement, the unsafe sort fields and the number of cursor values.
-/

namespace SqlxData.Dynamic

def maxCursorFields : ℕ := 10

def validateSorting (sortBy : Option SortingParams) : Except SqlxError Unit :=
  match sortBy with
  | some sortParams =>
      if sortParams.hasUnsafeFields then
        sortParams.validateFields.mapError fun msg =>
          invalidArgument ("Sort validation failed: " ++ msg)
      else
        .ok ()
  | none => .ok ()

def validateFields (params : Params) : Except SqlxError Unit := do
  validateSorting params.sortBy
  match params.pagination with
  | some (.cursor cursorParams) =>
      if cursorParams.len > maxCursorFields then
        .error (invalidArgument ("Cursor too large: " ++ toString cursorParams.len ++
          " fields (max " ++ toString maxCursorFields ++ ")"))
      else
        .ok ()
  | _ => .ok ()

end SqlxData.Dynamic
