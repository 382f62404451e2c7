import Mathlib.Data.List.Basic

/-!
Filter values and filters. A value is what ends up in the bind list of a
statement. The feature-gated variants (JSON, UUID, dates, decimals, network
and binary types) are one constructor here: no function modelled looks into
them.
-/

namespace SqlxData

inductive FilterValue
  | string (s : String)
  | int (i : Int64)
  | uint (u : UInt64)
  /-- An `f64`, given by its bits. -/
  | float (bits : UInt64)
  | bool (b : Bool)
  | array (values : List FilterValue)
  | extended (variant payload : String)
  | blob (bytes : List UInt8)
  | null
  deriving Repr, Inhabited

mutual

def FilterValue.decEq (a b : FilterValue) : Decidable (a = b) := by
  cases a <;> cases b
  case string.string s t => exact decidable_of_iff (s = t) (by simp)
  case int.int i j => exact decidable_of_iff (i = j) (by simp)
  case uint.uint i j => exact decidable_of_iff (i = j) (by simp)
  case float.float i j => exact decidable_of_iff (i = j) (by simp)
  case bool.bool i j => exact decidable_of_iff (i = j) (by simp)
  case array.array xs ys =>
    exact match FilterValue.decEqList xs ys with
      | isTrue h => isTrue (by rw [h])
      | isFalse h => isFalse (by simpa using h)
  case extended.extended v p w q => exact decidable_of_iff (v = w ∧ p = q) (by simp)
  case blob.blob i j => exact decidable_of_iff (i = j) (by simp)
  case null.null => exact isTrue rfl
  all_goals exact isFalse nofun

def FilterValue.decEqList (xs ys : List FilterValue) : Decidable (xs = ys) :=
  match xs, ys with
  | [], [] => isTrue rfl
  | x :: xs, y :: ys =>
      match FilterValue.decEq x y, FilterValue.decEqList xs ys with
      | isTrue h, isTrue hs => isTrue (by rw [h, hs])
      | isFalse h, _ => isFalse fun e => h (List.cons.inj e).1
      | _, isFalse hs => isFalse fun e => hs (List.cons.inj e).2
  | [], _ :: _ => isFalse nofun
  | _ :: _, [] => isFalse nofun

end

instance : DecidableEq FilterValue := FilterValue.decEq

inductive FilterOperator
  | eq
  | ne
  | gt
  | lt
  | gte
  | lte
  | like
  | iLike
  | unsafeLike
  | in
  | notIn
  | isNull
  | isNotNull
  | between
  | contains
  deriving DecidableEq, Repr

structure Filter where
  field : String
  operator : FilterOperator
  value : FilterValue
  /-- Negates the filter; only the Like, In, Between and Contains families
  look at it. -/
  not : Bool
  deriving DecidableEq

structure FilterParams where
  filters : List Filter
  deriving DecidableEq

structure SearchParams where
  query : String
  fields : List String
  caseSensitive : Bool
  exactMatch : Bool
  deriving DecidableEq

end SqlxData
