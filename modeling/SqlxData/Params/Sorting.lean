import SqlxData.Params.Builder
import Mathlib.Data.List.ModifyLast

/-!
Sort lists. The name of a sort that came in through an unsafe method is kept a
second time, in a list of its own; the validation reads that list and the
whitelist, the statement is made of the sorts.
-/

namespace SqlxData

/-! ### Sorts -/

namespace SortField

def new (field : String) (direction : SortDirection) : SortField :=
  ⟨field, direction, .default, .safe⟩

def newUnsafe (field : String) (direction : SortDirection) : SortField :=
  ⟨field, direction, .default, .unchecked⟩

def isUnsafe (s : SortField) : Bool := s.safetyType = .unchecked

def ascUnsafe (field : String) : SortField := newUnsafe field .asc

def descUnsafe (field : String) : SortField := newUnsafe field .desc

end SortField

/-! ### Sort lists -/

namespace SortingParams

def new : SortingParams := ⟨[], [], none⟩

def hasUnsafeFields (s : SortingParams) : Bool := !s.unsafeFields.isEmpty

def withAllowedColumns (s : SortingParams) (columns : List String) : SortingParams :=
  { s with allowedColumns := some columns }

/-- Every unsafe field has to be an allowed column. -/
def validateFields (s : SortingParams) : Except String Unit :=
  if !s.hasUnsafeFields then
    .ok ()
  else
    match s.allowedColumns with
    | none => .error "Unsafe fields present but no allowed_columns specified"
    | some allowed =>
        match s.unsafeFields.find? (· ∉ allowed) with
        | some field => .error ("Field '" ++ field ++ "' is not in allowed columns list")
        | none => .ok ()

def push (s : SortingParams) (sort : SortField) : SortingParams :=
  { s with
    sorts := s.sorts ++ [sort]
    unsafeFields := if sort.isUnsafe then s.unsafeFields ++ [sort.field] else s.unsafeFields }

def sortBy (s : SortingParams) (field : String) (direction : SortDirection) : SortingParams :=
  { s with sorts := s.sorts ++ [.new field direction] }

def asc (s : SortingParams) (field : String) : SortingParams := s.sortBy field .asc

def desc (s : SortingParams) (field : String) : SortingParams := s.sortBy field .desc

/-- The last sort gets a place for its NULLs. -/
def applyNulls (s : SortingParams) (nulls : NullOrdering) : SortingParams :=
  { s with sorts := s.sorts.modifyLast fun sort => { sort with nulls := nulls } }

def applyNullsFirst (s : SortingParams) : SortingParams := s.applyNulls .first

def applyNullsLast (s : SortingParams) : SortingParams := s.applyNulls .last

def applyNullsDefault (s : SortingParams) : SortingParams := s.applyNulls .default

end SortingParams

/-! ### The sort builder -/

structure SortBuilder where
  sorts : SortingParams
  allowedColumns : Option (List String)

/-- A call of `SortBuilder`. Its types let `asc` and `desc` come only before
`with_allowed_columns` and the unsafe ones only behind it. -/
inductive SortCall
  | asc (field : String)
  | desc (field : String)
  | withAllowedColumns (columns : List String)
  | ascUnsafe (field : String)
  | descUnsafe (field : String)
  | nullsFirst
  | nullsLast
  | nullsDefault

namespace SortBuilder

def new : SortBuilder := ⟨.new, none⟩

def apply (b : SortBuilder) : SortCall → SortBuilder
  | .asc field => { b with sorts := b.sorts.asc field }
  | .desc field => { b with sorts := b.sorts.desc field }
  | .withAllowedColumns columns => ⟨b.sorts.withAllowedColumns columns, some columns⟩
  | .ascUnsafe field => { b with sorts := b.sorts.push (.ascUnsafe field) }
  | .descUnsafe field => { b with sorts := b.sorts.push (.descUnsafe field) }
  | .nullsFirst => { b with sorts := b.sorts.applyNullsFirst }
  | .nullsLast => { b with sorts := b.sorts.applyNullsLast }
  | .nullsDefault => { b with sorts := b.sorts.applyNullsDefault }

end SortBuilder

/-- What the builder holds after `sort()...`. -/
def sortOf (calls : List SortCall) : SortingParams := (calls.foldl SortBuilder.apply .new).sorts

/-! ### Runs -/

namespace SortingParams

/-- The sort lists the public operations make, in any order; a merge takes two
of them. -/
inductive Reachable : SortingParams → Prop
  | new : Reachable .new
  | withAllowedColumns {s} (columns : List String) : Reachable s →
      Reachable (s.withAllowedColumns columns)
  | push {s} (sort : SortField) : Reachable s → Reachable (s.push sort)
  | sortBy {s} (field : String) (direction : SortDirection) : Reachable s →
      Reachable (s.sortBy field direction)
  | applyNulls {s} (nulls : NullOrdering) : Reachable s → Reachable (s.applyNulls nulls)
  | extendWith {s other} : Reachable s → Reachable other → Reachable (s.extendWith other)

theorem reachable_apply {b : SortBuilder} (h : b.sorts.Reachable) (c : SortCall) :
    (b.apply c).sorts.Reachable := by
  cases c with
  | asc field => exact h.sortBy field .asc
  | desc field => exact h.sortBy field .desc
  | withAllowedColumns columns => exact h.withAllowedColumns columns
  | ascUnsafe field => exact h.push (.ascUnsafe field)
  | descUnsafe field => exact h.push (.descUnsafe field)
  | nullsFirst => exact h.applyNulls .first
  | nullsLast => exact h.applyNulls .last
  | nullsDefault => exact h.applyNulls .default

theorem reachable_sortOf (calls : List SortCall) : (sortOf calls).Reachable := by
  have hrun : ∀ b : SortBuilder, b.sorts.Reachable →
      (calls.foldl SortBuilder.apply b).sorts.Reachable := by
    induction calls with
    | nil => exact fun b hb => hb
    | cons c calls ih => exact fun b hb => ih (b.apply c) (reachable_apply hb c)
  exact hrun .new .new

/-- The sort lists of a request built by calls of `ParamsBuilder`, each sort
list among them held by a sort builder. -/
theorem reachable_build {calls : List ParamsCall}
    (hcalls : ∀ sorts, .sort sorts ∈ calls → ∃ sortCalls, sorts = sortOf sortCalls) :
    ∀ s ∈ (ParamsBuilder.build calls).sortBy, s.Reachable := by
  have hrun : ∀ params : Params, (∀ s ∈ params.sortBy, s.Reachable) →
      ∀ s ∈ (calls.foldl ParamsBuilder.apply params).sortBy, s.Reachable := by
    induction calls with
    | nil => exact fun params h => h
    | cons c calls ih =>
        intro params h
        refine ih (fun sorts hmem => hcalls sorts (List.mem_cons_of_mem c hmem)) _ ?_
        cases c with
        | sort sorts =>
            obtain ⟨sortCalls, rfl⟩ := hcalls sorts List.mem_cons_self
            simp only [ParamsBuilder.apply, ParamsBuilder.sortDone]
            split
            · exact h
            · intro s hs
              cases hsortBy : params.sortBy with
              | none =>
                  simp only [hsortBy, Option.mem_some_iff] at hs
                  exact hs ▸ reachable_sortOf sortCalls
              | some existing =>
                  simp only [hsortBy, Option.mem_some_iff] at hs
                  exact hs ▸ (h existing hsortBy).extendWith (reachable_sortOf sortCalls)
        | search search =>
            simp only [ParamsBuilder.apply, ParamsBuilder.searchDone]
            split <;> exact h
        | _ => exact h
  exact hrun .default (by simp [Params.default])

/-! ### The unsafe fields -/

/-- The second list names the unsafe sorts, in order. -/
def Tracked (s : SortingParams) : Prop :=
  s.unsafeFields = (s.sorts.filter SortField.isUnsafe).map SortField.field

variable {s other : SortingParams}

theorem Tracked.withAllowedColumns (h : s.Tracked) (columns : List String) :
    (s.withAllowedColumns columns).Tracked := h

theorem Tracked.push (h : s.Tracked) (sort : SortField) : (s.push sort).Tracked := by
  rw [Tracked, SortingParams.push, List.filter_append, List.map_append, ← h]
  by_cases hsort : sort.isUnsafe
  · simp [hsort]
  · simp [hsort]

theorem Tracked.sortBy (h : s.Tracked) (field : String) (direction : SortDirection) :
    (s.sortBy field direction).Tracked := by
  have hsafe : (SortField.new field direction).isUnsafe = false := by
    simp [SortField.new, SortField.isUnsafe]
  rw [Tracked, SortingParams.sortBy, List.filter_append, List.map_append, ← h]
  simp [hsafe]

theorem Tracked.applyNulls (h : s.Tracked) (nulls : NullOrdering) :
    (s.applyNulls nulls).Tracked := by
  rw [Tracked, SortingParams.applyNulls, h]
  rcases List.eq_nil_or_concat' s.sorts with hnil | ⟨init, last, hlast⟩
  · rw [hnil]
    rfl
  · -- a place for the NULLs changes neither the name nor how the sort came in
    rw [hlast, List.modifyLast_concat, List.filter_append, List.filter_append]
    by_cases hmarked : last.isUnsafe
    · have hkept : SortField.isUnsafe { last with nulls := nulls } = true := hmarked
      simp [hmarked, hkept]
    · have hkept : ¬SortField.isUnsafe { last with nulls := nulls } = true := hmarked
      simp [hmarked, hkept]

theorem Tracked.extendWith (h : s.Tracked) (hother : other.Tracked) :
    (s.extendWith other).Tracked := by
  rw [Tracked, SortingParams.extendWith, List.filter_append, List.map_append, ← h, ← hother]

theorem Reachable.tracked (h : s.Reachable) : s.Tracked := by
  induction h with
  | new => rfl
  | withAllowedColumns columns _ ih => exact ih.withAllowedColumns columns
  | push sort _ ih => exact ih.push sort
  | sortBy field direction _ ih => exact ih.sortBy field direction
  | applyNulls nulls _ ih => exact ih.applyNulls nulls
  | extendWith _ _ ih ihother => exact ih.extendWith ihother

theorem Tracked.mem_unsafeFields (h : s.Tracked) {sort : SortField} (hsort : sort ∈ s.sorts)
    (hmarked : sort.isUnsafe) : sort.field ∈ s.unsafeFields := by
  rw [h]
  exact List.mem_map_of_mem (List.mem_filter.mpr ⟨hsort, hmarked⟩)

theorem Tracked.unsafeFields_eq_nil (h : s.Tracked) (hempty : s.isEmpty) : s.unsafeFields = [] := by
  rw [h, List.isEmpty_iff.mp hempty]
  rfl

/-! ### Verdicts -/

end SortingParams

/-- The whitelist has all the fields; without a whitelist there may be none. -/
def Allows (columns : Option (List String)) (fields : List String) : Prop :=
  fields = [] ∨ ∃ allowed, columns = some allowed ∧ ∀ field ∈ fields, field ∈ allowed

theorem allows_append {columns : Option (List String)} {fields fields' : List String} :
    Allows columns (fields ++ fields') ↔ Allows columns fields ∧ Allows columns fields' := by
  cases columns with
  | none => simp [Allows]
  | some allowed =>
      have hsome : ∀ fields : List String,
          Allows (some allowed) fields ↔ ∀ field ∈ fields, field ∈ allowed := by
        intro fields
        simp only [Allows, Option.some.injEq, exists_eq_left', or_iff_right_iff_imp]
        rintro rfl
        simp
      simp only [hsome, List.forall_mem_append]

namespace SortingParams

theorem validateFields_eq_ok_iff (s : SortingParams) :
    s.validateFields = .ok () ↔ Allows s.allowedColumns s.unsafeFields := by
  rw [validateFields, hasUnsafeFields]
  by_cases hnone : s.unsafeFields = []
  · simp [hnone, Allows]
  have hsome : s.unsafeFields.isEmpty = false := by simpa using hnone
  cases hallowed : s.allowedColumns with
  | none => simp [hsome, Allows, hnone]
  | some allowed =>
      cases hfind : s.unsafeFields.find? (· ∉ allowed) with
      | none =>
          have hall : ∀ field ∈ s.unsafeFields, field ∈ allowed := by
            simpa using List.find?_eq_none.mp hfind
          simp only [hsome, hfind, Bool.not_false, Bool.not_true, Bool.false_eq_true, if_false, Allows,
            Option.some.injEq, exists_eq_left', true_iff]
          exact Or.inr hall
      | some field =>
          have hfield : field ∉ allowed := by simpa using List.find?_some hfind
          have hmem := List.mem_of_find?_eq_some hfind
          simp only [hsome, hfind, Bool.not_false, Bool.not_true, Bool.false_eq_true, if_false,
            reduceCtorEq, Allows, hnone, Option.some.injEq, exists_eq_left', false_or, false_iff]
          exact fun hall => hfield (hall field hmem)

/-- A merge is valid when the whitelist that is left, the first one if there
is one, has the unsafe fields of both sides. -/
theorem validateFields_extendWith (a b : SortingParams) :
    (a.extendWith b).validateFields = .ok () ↔
      Allows (a.allowedColumns.or b.allowedColumns) a.unsafeFields ∧
        Allows (a.allowedColumns.or b.allowedColumns) b.unsafeFields := by
  rw [validateFields_eq_ok_iff, ← allows_append]
  cases hallowed : a.allowedColumns <;> simp [extendWith, hallowed]

/-- The verdict of a merge: both sides against the whitelist that is left. It
is both verdicts when no side with unsafe fields has lost its whitelist. A sort
builder that is done merges what it holds, if it holds any sorts. -/
theorem merged_verdict (a b : SortingParams) :
    ((a.extendWith b).validateFields = .ok () ↔
        Allows (a.allowedColumns.or b.allowedColumns) a.unsafeFields ∧
          Allows (a.allowedColumns.or b.allowedColumns) b.unsafeFields) ∧
      ((a.unsafeFields ≠ [] → a.allowedColumns = a.allowedColumns.or b.allowedColumns) →
        (b.unsafeFields ≠ [] → b.allowedColumns = a.allowedColumns.or b.allowedColumns) →
        ((a.extendWith b).validateFields = .ok () ↔
          a.validateFields = .ok () ∧ b.validateFields = .ok ())) ∧
      ∀ (params : Params) (calls : List SortCall),
        (ParamsBuilder.sortDone { params with sortBy := some a } (sortOf calls)).sortBy =
            some (if (sortOf calls).isEmpty then a else a.extendWith (sortOf calls)) ∧
          ((sortOf calls).isEmpty → (sortOf calls).validateFields = .ok ()) := by
  have hsame : ∀ s : SortingParams, ∀ columns, (s.unsafeFields ≠ [] → s.allowedColumns = columns) →
      (Allows columns s.unsafeFields ↔ s.validateFields = .ok ()) := by
    intro s columns hcolumns
    rw [validateFields_eq_ok_iff]
    by_cases hnone : s.unsafeFields = []
    · simp [Allows, hnone]
    · rw [hcolumns hnone]
  refine ⟨validateFields_extendWith a b, fun ha hb => ?_, fun params calls => ⟨?_, fun hempty => ?_⟩⟩
  · rw [validateFields_extendWith, hsame a _ ha, hsame b _ hb]
  · rw [ParamsBuilder.sortDone]
    split <;> rfl
  · rw [validateFields_eq_ok_iff]
    exact Or.inl ((reachable_sortOf calls).tracked.unsafeFields_eq_nil hempty)

/-- Two sort builders with a whitelist each: both lists are valid, the merge is
not, since only the first whitelist is left. -/
theorem merged_verdict_lost :
    let a := sortOf [.withAllowedColumns ["id"], .ascUnsafe "id"]
    let b := sortOf [.withAllowedColumns ["name"], .ascUnsafe "name"]
    a.Reachable ∧ b.Reachable ∧ a.validateFields = .ok () ∧ b.validateFields = .ok () ∧
      (a.extendWith b).validateFields = .error "Field 'name' is not in allowed columns list" ∧
      (ParamsBuilder.build [.sort a, .sort b]).sortBy = some (a.extendWith b) :=
  ⟨reachable_sortOf _, reachable_sortOf _, rfl, rfl, rfl, rfl⟩

/-- Two sort builders with one whitelist. -/
theorem merged_verdict_kept :
    let a := sortOf [.withAllowedColumns ["id", "name"], .ascUnsafe "id"]
    let b := sortOf [.withAllowedColumns ["id", "name"], .ascUnsafe "name"]
    (a.extendWith b).validateFields = .ok () ↔
      a.validateFields = .ok () ∧ b.validateFields = .ok () :=
  (merged_verdict _ _).2.1 (fun _ => rfl) fun _ => rfl

end SortingParams

end SqlxData
