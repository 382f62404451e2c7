import SqlxData.Dynamic.Builder

/-!
The three ways in which a filter value becomes an argument of a statement: in
the list of a built statement, as the arguments of its own, and through its
`Encode` implementation.
-/

namespace SqlxData

open SqlxData.Dynamic

/-! ### Arguments -/

/-- What is written for an argument. -/
inductive DbValue
  | text (s : String)
  | integer (v : ℤ)
  | float (bits : UInt64)
  | boolean (b : Bool)
  | bytes (bs : List UInt8)
  | extended (variant payload : String)
  | null
  deriving DecidableEq

/-- `NaN`: all bits of the exponent, and some of the fraction. -/
def DbValue.isNaN : DbValue → Bool
  | .float bits => bits &&& 0x7FF0000000000000 = 0x7FF0000000000000 && bits &&& 0xFFFFFFFFFFFFF ≠ 0
  | _ => false

/-- The Rust types under which values are bound. -/
inductive ArgType
  | string
  | i64
  | u64
  | f64
  | optionI32
  deriving DecidableEq

/-- `<FilterValue as Type<DB>>::type_info`. -/
def ArgType.filterValue : ArgType := .i64

/-- A bound argument: the type that is declared for it and its value. -/
structure Argument where
  declared : ArgType
  value : DbValue
  deriving DecidableEq

/-- The values of a type, `NaN` left out; a missing value has every type. -/
inductive HasType : ArgType → DbValue → Prop
  | string (s : String) : HasType .string (.text s)
  | i64 (i : Int64) : HasType .i64 (.integer i.toInt)
  | u64 (u : UInt64) : HasType .u64 (.integer u.toNat)
  | f64 {bits : UInt64} (h : (DbValue.float bits).isNaN = false) : HasType .f64 (.float bits)
  | null (ty : ArgType) : HasType ty .null

/-- sqlx and the database behind it: the errors of its encoders, and whether a
value declared with a type arrives as what it is. SQLite is told no types, and
the other databases take a value of the declared type. Nothing is said of `NaN`,
which SQLite stores as a missing value. -/
structure Sqlx where
  encodeError : Backend → DbValue → Option String
  takes : Backend → ArgType → DbValue → Bool
  encodeError_null : ∀ backend, encodeError backend .null = none
  takes_sqlite : ∀ ty v, v.isNaN = false → takes .sqlite ty v = true
  takes_own : ∀ backend ty v, HasType ty v → takes backend ty v = true

inductive BindError
  | encode (msg : String)
  | panic (msg : String)
  deriving DecidableEq

section Binding

variable (S : Sqlx) (backend : Backend)

namespace Sqlx

/-- The `Encode` of a type of sqlx. -/
def encode (value : DbValue) : Except String DbValue :=
  match S.encodeError backend value with
  | some msg => .error msg
  | none => .ok value

/-- `Arguments::add`. -/
def add (args : List Argument) (declared : ArgType) (value : DbValue) :
    Except String (List Argument) := do
  let value ← S.encode backend value
  .ok (args ++ [⟨declared, value⟩])

/-- The value that arrives, if the database takes it. -/
def received (arg : Argument) : Option DbValue :=
  if S.takes backend arg.declared arg.value then some arg.value else none

end Sqlx

/-- `u as i64` -/
def uintAsI64 (u : UInt64) : DbValue := .integer u.toInt64.toInt

/-- `b as i64` -/
def boolAsI64 (b : Bool) : DbValue := .integer (if b then (1 : Int64) else 0).toInt

/-- `encode_by_ref`; `IsNull::Yes` is the missing value. -/
def encodeByRef : FilterValue → Except BindError DbValue
  | .string s => (S.encode backend (.text s)).mapError .encode
  | .int i => (S.encode backend (.integer i.toInt)).mapError .encode
  | .uint u => (S.encode backend (uintAsI64 u)).mapError .encode
  | .float f => (S.encode backend (.float f)).mapError .encode
  | .bool b => (S.encode backend (.boolean b)).mapError .encode
  | .blob v => (S.encode backend (.bytes v)).mapError .encode
  | .null => .ok .null
  | .array _ => .error (.panic
      "internal error: entered unreachable code: Array not supported in bind")
  | .extended variant payload =>
      (S.encode backend (.extended variant payload)).mapError .encode

/-- `args.add(v)` for the filter value itself. -/
def addFilterValue (args : List Argument) (v : FilterValue) : Except BindError (List Argument) := do
  let value ← encodeByRef S backend v
  .ok (args ++ [⟨.filterValue, value⟩])

def failedToBind (msg : String) : BindError := .encode ("Failed to bind FilterValue: " ++ msg)

/-- The error of `args.add(..).map_err(..)`; a panic is none. -/
def BindError.failed : BindError → BindError
  | .encode msg => failedToBind msg
  | .panic msg => .panic msg

/-- One pass of the loop of `bind_filter_values`. -/
def bindFilterValue (args : List Argument) (v : FilterValue) : Except BindError (List Argument) :=
  match v, backend with
  | .string s, _ => (S.add backend args .string (.text s)).mapError failedToBind
  | .int i, _ => (S.add backend args .i64 (.integer i.toInt)).mapError failedToBind
  | .uint u, .mysql => (S.add backend args .u64 (.integer u.toNat)).mapError failedToBind
  | .uint u, _ => (S.add backend args .i64 (uintAsI64 u)).mapError failedToBind
  | .bool b, .postgres => (addFilterValue S backend args (.bool b)).mapError .failed
  | .bool b, _ => (S.add backend args .i64 (boolAsI64 b)).mapError failedToBind
  | .float f, _ => (S.add backend args .f64 (.float f)).mapError failedToBind
  | .null, _ => (S.add backend args .optionI32 .null).mapError failedToBind
  | .array _, _ => .error (.encode "Array binding not supported")
  | v, _ => (addFilterValue S backend args v).mapError .failed

def bindFilterValues (values : List FilterValue) : Except BindError (List Argument) :=
  values.foldlM (bindFilterValue S backend) []

/-- `expect` -/
def expect {α : Type} (msg : String) (result : Except BindError α) : Except BindError α :=
  result.mapError fun _ => .panic msg

/-- `into_arguments`, which SQLite has its own match for. -/
def intoArguments (v : FilterValue) : Except BindError (List Argument) :=
  match backend with
  | .sqlite =>
      match v with
      | .array _ => .error (.panic "Array binding not supported")
      | v => expect "Failed to bind FilterValue" (
          match v with
          | .string s => (S.add .sqlite [] .string (.text s)).mapError .encode
          | .int i => (S.add .sqlite [] .i64 (.integer i.toInt)).mapError .encode
          | .uint u => (S.add .sqlite [] .i64 (uintAsI64 u)).mapError .encode
          | .bool b => (S.add .sqlite [] .i64 (boolAsI64 b)).mapError .encode
          | .float f => (S.add .sqlite [] .f64 (.float f)).mapError .encode
          | .null => (S.add .sqlite [] .optionI32 .null).mapError .encode
          | v => addFilterValue S .sqlite [] v)
  | backend => expect "unsupported argument in filter value." (bindFilterValues S backend [v])

end Binding

/-! ### What is sent -/

/-- The argument that is bound for a value, if it can be bound at all. -/
def sentArgument (backend : Backend) : FilterValue → Option Argument
  | .string s => some ⟨.string, .text s⟩
  | .int i => some ⟨.i64, .integer i.toInt⟩
  | .uint u => some (if backend = .mysql then ⟨.u64, .integer u.toNat⟩ else ⟨.i64, uintAsI64 u⟩)
  | .bool b =>
      some (if backend = .postgres then ⟨.filterValue, .boolean b⟩ else ⟨.i64, boolAsI64 b⟩)
  | .float f => some ⟨.f64, .float f⟩
  | .null => some ⟨.optionI32, .null⟩
  | .blob v => some ⟨.filterValue, .bytes v⟩
  | .extended variant payload => some ⟨.filterValue, .extended variant payload⟩
  | .array _ => none

/-- What `encode_by_ref` writes for a value. -/
def encodedValue : FilterValue → Option DbValue
  | .string s => some (.text s)
  | .int i => some (.integer i.toInt)
  | .uint u => some (uintAsI64 u)
  | .bool b => some (.boolean b)
  | .float f => some (.float f)
  | .null => some .null
  | .blob v => some (.bytes v)
  | .extended variant payload => some (.extended variant payload)
  | .array _ => none

section Sent

variable {S : Sqlx} {backend : Backend}

theorem add_eq (args : List Argument) (declared : ArgType) (value : DbValue) :
    S.add backend args declared value =
      match S.encodeError backend value with
      | some msg => .error msg
      | none => .ok (args ++ [⟨declared, value⟩]) := by
  rw [Sqlx.add, Sqlx.encode]
  cases S.encodeError backend value <;> rfl

theorem mapError_add_eq (f : String → BindError) (args : List Argument) (declared : ArgType)
    (value : DbValue) :
    (S.add backend args declared value).mapError f =
      match S.encodeError backend value with
      | some msg => .error (f msg)
      | none => .ok (args ++ [⟨declared, value⟩]) := by
  rw [add_eq]
  cases S.encodeError backend value <;> rfl

theorem encodeByRef_eq (v : FilterValue) :
    (∃ vs, v = .array vs ∧ ∃ msg, encodeByRef S backend v = .error (.panic msg)) ∨
      ∃ d, encodedValue v = some d ∧ encodeByRef S backend v =
        match S.encodeError backend d with
        | some msg => .error (.encode msg)
        | none => .ok d := by
  cases v with
  | array vs => exact Or.inl ⟨vs, rfl, _, rfl⟩
  | null =>
      refine Or.inr ⟨.null, rfl, ?_⟩
      rw [S.encodeError_null]
      rfl
  | _ =>
      refine Or.inr ⟨_, rfl, ?_⟩
      rw [encodeByRef, Sqlx.encode]
      cases S.encodeError backend _ <;> rfl

theorem addFilterValue_eq {v : FilterValue} {d : DbValue} (h : encodedValue v = some d)
    (args : List Argument) :
    addFilterValue S backend args v =
      match S.encodeError backend d with
      | some msg => .error (.encode msg)
      | none => .ok (args ++ [⟨.filterValue, d⟩]) := by
  obtain ⟨vs, rfl, -⟩ | ⟨d', hencoded, hencode⟩ := @encodeByRef_eq S backend v
  · cases h
  · obtain rfl := Option.some.inj (h.symm.trans hencoded)
    rw [addFilterValue, hencode]
    cases S.encodeError backend d <;> rfl

theorem mapError_addFilterValue_eq {v : FilterValue} {d : DbValue} (h : encodedValue v = some d)
    (args : List Argument) :
    (addFilterValue S backend args v).mapError .failed =
      match S.encodeError backend d with
      | some msg => .error (failedToBind msg)
      | none => .ok (args ++ [⟨.filterValue, d⟩]) := by
  rw [addFilterValue_eq h]
  cases S.encodeError backend d <;> rfl

/-- One pass appends the argument of the value or ends with an error. -/
theorem bindFilterValue_eq (args : List Argument) (v : FilterValue) :
    bindFilterValue S backend args v =
      match sentArgument backend v with
      | none => .error (.encode "Array binding not supported")
      | some arg =>
          match S.encodeError backend arg.value with
          | some msg => .error (failedToBind msg)
          | none => .ok (args ++ [arg]) := by
  cases v with
  | string | int | float | null => exact mapError_add_eq ..
  | uint u => cases backend <;> exact mapError_add_eq ..
  | bool b =>
      cases backend with
      | sqlite | mysql => exact mapError_add_eq ..
      | postgres => exact mapError_addFilterValue_eq rfl args
  | blob | extended => exact mapError_addFilterValue_eq rfl args
  | array vs => rfl

/-- The value has no argument, or sqlx has none for it. -/
def Refused (S : Sqlx) (backend : Backend) (v : FilterValue) : Prop :=
  ∀ arg, sentArgument backend v = some arg → S.encodeError backend arg.value ≠ none

theorem bindFilterValue_of_refused {v : FilterValue} (h : Refused S backend v)
    (args : List Argument) : ∃ msg, bindFilterValue S backend args v = .error (.encode msg) := by
  rw [bindFilterValue_eq]
  cases hsent : sentArgument backend v with
  | none => exact ⟨_, rfl⟩
  | some arg =>
      obtain ⟨msg, hmsg⟩ := Option.ne_none_iff_exists'.mp (h arg hsent)
      exact ⟨_, by simp only [hmsg]; rfl⟩

theorem bindFilterValue_of_not_refused {v : FilterValue} (h : ¬Refused S backend v) :
    ∃ arg, sentArgument backend v = some arg ∧ S.encodeError backend arg.value = none ∧
      ∀ args, bindFilterValue S backend args v = .ok (args ++ [arg]) := by
  rw [Refused] at h
  push Not at h
  obtain ⟨arg, hsent, hnone⟩ := h
  exact ⟨arg, hsent, hnone, fun args => by rw [bindFilterValue_eq, hsent]; simp only [hnone]⟩

theorem foldlM_bind_of_refused {values : List FilterValue} (h : ∃ v ∈ values, Refused S backend v)
    (args : List Argument) :
    ∃ msg, values.foldlM (bindFilterValue S backend) args = .error (.encode msg) := by
  induction values generalizing args with
  | nil => simp at h
  | cons v values ih =>
      rw [List.foldlM_cons]
      by_cases hv : Refused S backend v
      · obtain ⟨msg, hmsg⟩ := bindFilterValue_of_refused hv args
        exact ⟨msg, by rw [hmsg]; rfl⟩
      · obtain ⟨arg, -, -, hrun⟩ := bindFilterValue_of_not_refused hv
        have hrest : ∃ v ∈ values, Refused S backend v := by simpa [hv] using h
        rw [hrun]
        exact ih hrest (args ++ [arg])

theorem foldlM_bind_of_not_refused {values : List FilterValue}
    (h : ∀ v ∈ values, ¬Refused S backend v) (args : List Argument) :
    ∃ added, values.foldlM (bindFilterValue S backend) args = .ok (args ++ added) ∧
      List.Forall₂ (fun v arg => sentArgument backend v = some arg) values added := by
  induction values generalizing args with
  | nil => exact ⟨[], by rw [List.append_nil]; rfl, .nil⟩
  | cons v values ih =>
      obtain ⟨hv, hvalues⟩ := List.forall_mem_cons.mp h
      obtain ⟨arg, hsent, -, hrun⟩ := bindFilterValue_of_not_refused hv
      obtain ⟨added, hrest, hadded⟩ := ih hvalues (args ++ [arg])
      refine ⟨arg :: added, ?_, .cons hsent hadded⟩
      rw [List.foldlM_cons, hrun]
      exact hrest.trans (by rw [List.append_assoc, List.singleton_append])

end Sent

/-! ### Preserved values -/

/-- The written value is the value. -/
def Represents : DbValue → FilterValue → Prop
  | .text s, .string s' => s = s'
  | .integer v, .int i => v = i.toInt
  | .integer v, .uint u => v = u.toNat
  | .integer v, .bool b => v = if b then 1 else 0
  | .boolean b, .bool b' => b = b'
  | .float f, .float f' => f = f'
  | .bytes bs, .blob bs' => bs = bs'
  | .extended variant payload, .extended variant' payload' =>
      variant = variant' ∧ payload = payload'
  | .null, .null => True
  | _, _ => False

/-- The values are bound one for one, in order, and arrive as what they are;
or there is an error. -/
def BindPreserves (S : Sqlx) (backend : Backend) (values : List FilterValue) : Prop :=
  (∃ msg, bindFilterValues S backend values = .error (.encode msg)) ∨
    ∃ args, bindFilterValues S backend values = .ok args ∧
      List.Forall₂ (fun v arg => ∃ d, S.received backend arg = some d ∧ Represents d v) values args

/-- The largest `i64` and one. -/
def i64Bound : ℕ := 9223372036854775808

/-- The value is bound as what it is: an unsigned one fits `i64` where it is
cast to it, a `NaN` is taken, and a value of another type is taken under the type
`i64`, which `FilterValue` declares. -/
def KeepsValue (S : Sqlx) (backend : Backend) : FilterValue → Prop
  | .uint u => backend = .mysql ∨ u.toNat < i64Bound
  | .bool b => backend = .postgres → S.takes backend .filterValue (.boolean b)
  | .float f => (DbValue.float f).isNaN → S.takes backend .f64 (.float f)
  | .blob v => S.takes backend .filterValue (.bytes v)
  | .extended variant payload => S.takes backend .filterValue (.extended variant payload)
  | _ => True

theorem toInt_toInt64_eq_iff (u : UInt64) : u.toInt64.toInt = u.toNat ↔ u.toNat < i64Bound := by
  have hlt := u.toNat_lt
  change u.toBitVec.toInt = u.toBitVec.toNat ↔ u.toBitVec.toNat < i64Bound
  rw [BitVec.toInt_eq_toNat_cond, i64Bound]
  have hnat : u.toBitVec.toNat = u.toNat := rfl
  split <;> omega

theorem toInt_boolAsI64 (b : Bool) : boolAsI64 b = .integer (if b then 1 else 0) := by
  cases b <;> rfl

section Preserved

variable {S : Sqlx} {backend : Backend}

theorem exists_received_iff (arg : Argument) {P : DbValue → Prop} :
    (∃ d, S.received backend arg = some d ∧ P d) ↔
      S.takes backend arg.declared arg.value ∧ P arg.value := by
  rw [Sqlx.received]
  split
  · rename_i h
    simp [h]
  · rename_i h
    simp [h]

theorem hasType_uintAsI64 (u : UInt64) : HasType .i64 (uintAsI64 u) := .i64 u.toInt64

theorem hasType_boolAsI64 (b : Bool) : HasType .i64 (boolAsI64 b) := .i64 _

theorem keepsValue_iff {v : FilterValue} {arg : Argument} (h : sentArgument backend v = some arg) :
    (∃ d, S.received backend arg = some d ∧ Represents d v) ↔ KeepsValue S backend v := by
  rw [exists_received_iff]
  have hown : ∀ ty value, HasType ty value → S.takes backend ty value = true :=
    S.takes_own backend
  cases v with
  | array vs => cases h
  | string s =>
      obtain rfl := Option.some.inj h
      exact iff_of_true ⟨hown _ _ (.string s), rfl⟩ trivial
  | int i =>
      obtain rfl := Option.some.inj h
      exact iff_of_true ⟨hown _ _ (.i64 i), rfl⟩ trivial
  | float f =>
      obtain rfl := Option.some.inj h
      cases hnan : (DbValue.float f).isNaN with
      | true => exact ⟨fun h _ => h.1, fun h => ⟨h hnan, rfl⟩⟩
      | false =>
          exact iff_of_true ⟨hown _ _ (.f64 hnan), rfl⟩ fun h =>
            absurd (hnan.symm.trans h) Bool.false_ne_true
  | null =>
      obtain rfl := Option.some.inj h
      exact iff_of_true ⟨hown _ _ (.null _), trivial⟩ trivial
  | uint u =>
      obtain rfl := Option.some.inj h
      by_cases hmysql : backend = .mysql
      · rw [if_pos hmysql]
        exact iff_of_true ⟨hown _ _ (.u64 u), rfl⟩ (Or.inl hmysql)
      · rw [if_neg hmysql]
        simp only [hown _ _ (hasType_uintAsI64 u), true_and, KeepsValue, hmysql, false_or]
        exact toInt_toInt64_eq_iff u
  | bool b =>
      obtain rfl := Option.some.inj h
      by_cases hpostgres : backend = .postgres
      · subst hpostgres
        exact ⟨fun h _ => h.1, fun h => ⟨h rfl, rfl⟩⟩
      · rw [if_neg hpostgres]
        refine iff_of_true ⟨hown _ _ (hasType_boolAsI64 b), ?_⟩ fun h => absurd h hpostgres
        rw [toInt_boolAsI64]
        exact rfl
  | blob bs =>
      obtain rfl := Option.some.inj h
      exact and_iff_left rfl
  | extended variant payload =>
      obtain rfl := Option.some.inj h
      exact and_iff_left ⟨rfl, rfl⟩

theorem forall₂_received_iff {values : List FilterValue} {args : List Argument}
    (hsent : List.Forall₂ (fun v arg => sentArgument backend v = some arg) values args) :
    List.Forall₂ (fun v arg => ∃ d, S.received backend arg = some d ∧ Represents d v) values args ↔
      ∀ v ∈ values, KeepsValue S backend v := by
  induction hsent with
  | nil => simp
  | cons h _ ih => rw [List.forall₂_cons, keepsValue_iff h, ih, List.forall_mem_cons]

/-- SQLite looks at no declared type: it is a cast or a `NaN` that changes a
value. -/
theorem keepsValue_sqlite_iff (v : FilterValue) :
    KeepsValue S .sqlite v ↔ (∀ u, v = .uint u → u.toNat < i64Bound) ∧
      ∀ f, v = .float f → (DbValue.float f).isNaN → S.takes .sqlite .f64 (.float f) := by
  have htakes : ∀ d : DbValue, d.isNaN = false → S.takes .sqlite .filterValue d = true :=
    S.takes_sqlite .filterValue
  cases v with
  | blob bs => simp [KeepsValue, htakes _ (rfl : (DbValue.bytes bs).isNaN = false)]
  | extended variant payload =>
      simp [KeepsValue, htakes _ (rfl : (DbValue.extended variant payload).isNaN = false)]
  | _ => simp [KeepsValue]

/-- A list is bound as it is, or refused with an error, unless one of its
values is bound as another one. -/
theorem bindPreserves_iff (values : List FilterValue) :
    BindPreserves S backend values ↔
      (∃ v ∈ values, Refused S backend v) ∨ ∀ v ∈ values, KeepsValue S backend v := by
  by_cases hrefused : ∃ v ∈ values, Refused S backend v
  · exact iff_of_true (Or.inl (foldlM_bind_of_refused hrefused [])) (Or.inl hrefused)
  · have hnone : ∀ v ∈ values, ¬Refused S backend v := fun v hv h => hrefused ⟨v, hv, h⟩
    obtain ⟨args, hrun, hsent⟩ := foldlM_bind_of_not_refused hnone []
    have hbound : bindFilterValues S backend values = .ok args := hrun
    simp only [hrefused, false_or]
    rw [BindPreserves, hbound]
    simp only [reduceCtorEq, exists_false, false_or, Except.ok.injEq, exists_eq_left']
    exact forall₂_received_iff hsent

end Preserved

/-! ### The three ways -/

/-- Booleans as the numbers 0 and 1. -/
def DbValue.plain : DbValue → DbValue
  | .boolean b => .integer (if b then 1 else 0)
  | d => d

/-- The three ways send the same value, or all of them report an error. -/
def WaysAgree (S : Sqlx) (backend : Backend) (v : FilterValue) : Prop :=
  (∃ m₁ m₂ m₃, bindFilterValues S backend [v] = .error (.encode m₁) ∧
    intoArguments S backend v = .error (.encode m₂) ∧
    encodeByRef S backend v = .error (.encode m₃)) ∨
  ∃ a₁ a₂ d₃, bindFilterValues S backend [v] = .ok [a₁] ∧ intoArguments S backend v = .ok [a₂] ∧
    encodeByRef S backend v = .ok d₃ ∧
    ∃ d, (S.received backend a₁).map DbValue.plain = some d ∧
      (S.received backend a₂).map DbValue.plain = some d ∧
      (S.received backend ⟨.filterValue, d₃⟩).map DbValue.plain = some d

/-- The value is no array, sqlx encodes it, MySQL gets no number above `i64`,
and the encoded value is taken under the type `i64`, a `NaN` also under its
own. -/
def AgreeWhen (S : Sqlx) (backend : Backend) (v : FilterValue) : Prop :=
  ∃ arg d, sentArgument backend v = some arg ∧ encodedValue v = some d ∧
    S.encodeError backend arg.value = none ∧ S.encodeError backend d = none ∧
    S.takes backend .filterValue d ∧
    (∀ u, v = .uint u → backend = .mysql → u.toNat < i64Bound) ∧
    ∀ f, v = .float f → (DbValue.float f).isNaN → S.takes backend .f64 (.float f)

section Ways

variable {S : Sqlx} {backend : Backend}

theorem bindFilterValues_singleton (v : FilterValue) :
    bindFilterValues S backend [v] = bindFilterValue S backend [] v := by
  rw [bindFilterValues, List.foldlM_cons]
  exact bind_pure _

theorem intoArguments_sqlite (v : FilterValue) :
    intoArguments S .sqlite v =
      match sentArgument .sqlite v with
      | none => .error (.panic "Array binding not supported")
      | some arg =>
          match S.encodeError .sqlite arg.value with
          | some _ => .error (.panic "Failed to bind FilterValue")
          | none => .ok [arg] := by
  have hadd : ∀ declared value,
      expect "Failed to bind FilterValue" ((S.add .sqlite [] declared value).mapError .encode) =
        match S.encodeError .sqlite value with
        | some _ => .error (.panic "Failed to bind FilterValue")
        | none => .ok [⟨declared, value⟩] := by
    intro declared value
    rw [mapError_add_eq]
    cases S.encodeError .sqlite value <;> rfl
  have hvalue : ∀ {v d}, encodedValue v = some d →
      expect "Failed to bind FilterValue" (addFilterValue S .sqlite [] v) =
        match S.encodeError .sqlite d with
        | some _ => .error (.panic "Failed to bind FilterValue")
        | none => .ok [⟨.filterValue, d⟩] := by
    intro v d h
    rw [addFilterValue_eq h]
    cases S.encodeError .sqlite d <;> rfl
  cases v with
  | string | int | uint | bool | float | null => exact hadd _ _
  | blob | extended => exact hvalue rfl
  | array vs => rfl

/-- The arguments of a value of its own are those of a list of it; an error
becomes a panic. -/
theorem intoArguments_eq (v : FilterValue) :
    (∃ arg, sentArgument backend v = some arg ∧ S.encodeError backend arg.value = none ∧
        bindFilterValues S backend [v] = .ok [arg] ∧ intoArguments S backend v = .ok [arg]) ∨
      Refused S backend v ∧ ∃ msg, intoArguments S backend v = .error (.panic msg) := by
  by_cases hrefused : Refused S backend v
  · right
    refine ⟨hrefused, ?_⟩
    obtain ⟨msg, hmsg⟩ := bindFilterValue_of_refused hrefused []
    cases backend with
    | sqlite =>
        rw [intoArguments_sqlite]
        cases hsent : sentArgument .sqlite v with
        | none => exact ⟨_, rfl⟩
        | some arg =>
            obtain ⟨err, herr⟩ := Option.ne_none_iff_exists'.mp (hrefused arg hsent)
            exact ⟨_, by simp only [herr]; rfl⟩
    | postgres | mysql =>
        refine ⟨"unsupported argument in filter value.", ?_⟩
        change expect _ (bindFilterValues S _ [v]) = _
        rw [bindFilterValues_singleton, hmsg]
        rfl
  · left
    obtain ⟨arg, hsent, hnone, hrun⟩ := bindFilterValue_of_not_refused hrefused
    refine ⟨arg, hsent, hnone, by rw [bindFilterValues_singleton]; exact hrun [], ?_⟩
    cases backend with
    | sqlite =>
        rw [intoArguments_sqlite, hsent]
        simp only [hnone]
    | postgres | mysql =>
        change expect _ (bindFilterValues S _ [v]) = _
        rw [bindFilterValues_singleton, hrun]
        rfl

/-- An argument has its own type, is the filter value itself or is a `NaN`. -/
theorem sentArgument_declared {v : FilterValue} {arg : Argument} {d : DbValue}
    (hsent : sentArgument backend v = some arg) (hencoded : encodedValue v = some d) :
    HasType arg.declared arg.value ∨ arg = ⟨.filterValue, d⟩ ∨
      ∃ f, v = .float f ∧ (DbValue.float f).isNaN ∧ arg = ⟨.f64, .float f⟩ := by
  cases v with
  | array vs => cases hsent
  | blob | extended =>
      obtain rfl := Option.some.inj hsent
      obtain rfl := Option.some.inj hencoded
      exact Or.inr (Or.inl rfl)
  | bool b =>
      obtain rfl := Option.some.inj hsent
      obtain rfl := Option.some.inj hencoded
      split
      · exact Or.inr (Or.inl rfl)
      · exact Or.inl (hasType_boolAsI64 b)
  | uint u =>
      obtain rfl := Option.some.inj hsent
      split
      · exact Or.inl (.u64 u)
      · exact Or.inl (hasType_uintAsI64 u)
  | float f =>
      obtain rfl := Option.some.inj hsent
      cases hnan : (DbValue.float f).isNaN with
      | true => exact Or.inr (Or.inr ⟨f, rfl, hnan, rfl⟩)
      | false => exact Or.inl (.f64 hnan)
  | string | int | null =>
      obtain rfl := Option.some.inj hsent
      exact Or.inl (by constructor)

/-- The argument and the encoded value are the same number, unless the cast to
`i64` comes between. -/
theorem plain_eq_iff {v : FilterValue} {arg : Argument} {d : DbValue}
    (hsent : sentArgument backend v = some arg) (hencoded : encodedValue v = some d) :
    arg.value.plain = d.plain ↔ ∀ u, v = .uint u → backend = .mysql → u.toNat < i64Bound := by
  cases v with
  | array vs => cases hsent
  | uint u =>
      obtain rfl := Option.some.inj hsent
      obtain rfl := Option.some.inj hencoded
      simp only [FilterValue.uint.injEq, forall_eq']
      by_cases hmysql : backend = .mysql
      · rw [if_pos hmysql, ← toInt_toInt64_eq_iff]
        simp only [hmysql, forall_const, uintAsI64, DbValue.plain, DbValue.integer.injEq]
        exact eq_comm
      · rw [if_neg hmysql]
        exact iff_of_true rfl fun h => absurd h hmysql
  | bool b =>
      obtain rfl := Option.some.inj hsent
      obtain rfl := Option.some.inj hencoded
      refine iff_of_true ?_ fun u hu => by cases hu
      split
      · rfl
      · rw [toInt_boolAsI64]
        rfl
  | _ =>
      obtain rfl := Option.some.inj hsent
      obtain rfl := Option.some.inj hencoded
      exact iff_of_true rfl fun u hu => by cases hu

/-- Where sqlx encodes a value both ways, the two values that arrive are the
same. -/
theorem received_same_iff {v : FilterValue} {arg : Argument} {d : DbValue}
    (hsent : sentArgument backend v = some arg) (hencoded : encodedValue v = some d) :
    (∃ r, (S.received backend arg).map DbValue.plain = some r ∧
        (S.received backend ⟨.filterValue, d⟩).map DbValue.plain = some r) ↔
      S.takes backend .filterValue d ∧
        (∀ u, v = .uint u → backend = .mysql → u.toNat < i64Bound) ∧
        ∀ f, v = .float f → (DbValue.float f).isNaN → S.takes backend .f64 (.float f) := by
  have hplain : ∀ (arg : Argument) r, (S.received backend arg).map DbValue.plain = some r ↔
      S.takes backend arg.declared arg.value ∧ arg.value.plain = r := by
    intro arg r
    rw [Option.map_eq_some_iff, exists_received_iff]
  have htakes : S.takes backend .filterValue d →
      (∀ f, v = .float f → (DbValue.float f).isNaN → S.takes backend .f64 (.float f)) →
        S.takes backend arg.declared arg.value := by
    intro h hfloat
    obtain hown | rfl | ⟨f, hv, hnan, rfl⟩ := sentArgument_declared hsent hencoded
    · exact S.takes_own backend _ _ hown
    · exact h
    · exact hfloat f hv hnan
  simp only [hplain]
  rw [← plain_eq_iff hsent hencoded]
  constructor
  · rintro ⟨r, ⟨harg, hr⟩, hd, hr'⟩
    refine ⟨hd, hr.trans hr'.symm, ?_⟩
    rintro f rfl -
    obtain rfl := Option.some.inj hsent
    exact harg
  · rintro ⟨hd, heq, hfloat⟩
    exact ⟨d.plain, ⟨htakes hd hfloat, heq⟩, hd, rfl⟩

theorem waysAgree_iff (v : FilterValue) : WaysAgree S backend v ↔ AgreeWhen S backend v := by
  obtain ⟨arg, hsent, hnone, hbind, hinto⟩ | ⟨hrefused, msg, hinto⟩ :=
    @intoArguments_eq S backend v
  · obtain ⟨vs, rfl, -⟩ | ⟨d, hencoded, hencode⟩ := @encodeByRef_eq S backend v
    · cases hsent
    have hwhen : AgreeWhen S backend v ↔
        S.encodeError backend d = none ∧ S.takes backend .filterValue d ∧
          (∀ u, v = .uint u → backend = .mysql → u.toNat < i64Bound) ∧
          ∀ f, v = .float f → (DbValue.float f).isNaN → S.takes backend .f64 (.float f) := by
      simp only [AgreeWhen, hsent, hencoded, Option.some.injEq, exists_and_left, exists_eq_left',
        hnone, true_and]
    rw [hwhen, ← received_same_iff hsent hencoded]
    cases herror : S.encodeError backend d with
    | some err => simp [WaysAgree, hbind, hinto, hencode, herror]
    | none =>
        simp only [herror] at hencode
        simp only [WaysAgree, hbind, hinto, hencode, reduceCtorEq, false_and, exists_false,
          false_or, Except.ok.injEq, List.cons.injEq, and_true, exists_and_left, exists_eq_left',
          true_and, and_self_left]
  · refine iff_of_false ?_ ?_
    · rintro (⟨_, _, _, -, hinto', -⟩ | ⟨_, _, _, -, hinto', -⟩)
      · rw [hinto] at hinto'
        cases hinto'
      · rw [hinto] at hinto'
        cases hinto'
    · rintro ⟨arg, _, hsent, -, hnone, -⟩
      exact hrefused arg hsent hnone

end Ways

/-! ### Binding -/

/-- Lists of values are bound as they are, or refused, exactly where no value
is changed by a cast or by the type declared for it; and the three ways agree
exactly on encodable values that are no array, fit `i64` and arrive under the
type `i64`. What becomes of a `NaN` is the database's affair. -/
theorem binding_iff (S : Sqlx) (backend : Backend) :
    (∀ values : List FilterValue, BindPreserves S backend values ↔
      (∃ v ∈ values, Refused S backend v) ∨ ∀ v ∈ values, KeepsValue S backend v) ∧
    ∀ v : FilterValue, WaysAgree S backend v ↔ AgreeWhen S backend v :=
  ⟨bindPreserves_iff, waysAgree_iff⟩

/-- Whether a value is one of the type. -/
def ArgType.has : ArgType → DbValue → Bool
  | _, .null => true
  | .string, .text _ => true
  | .i64, .integer v => -(i64Bound : ℤ) ≤ v && v < i64Bound
  | .u64, .integer v => 0 ≤ v && v < 18446744073709551616
  | .f64, .float _ => true
  | _, _ => false

theorem not_isNaN_of_hasType {ty : ArgType} {v : DbValue} (h : HasType ty v) :
    v.isNaN = false := by
  cases h with
  | f64 h => exact h
  | _ => rfl

theorem ArgType.has_of_hasType {ty : ArgType} {v : DbValue} (h : HasType ty v) :
    ty.has v = true := by
  cases h with
  | string | f64 => rfl
  | null => cases ty <;> rfl
  | i64 i =>
      have hle := i.le_toInt
      have hlt := i.toInt_lt
      have hbound : (i64Bound : ℤ) = 9223372036854775808 := rfl
      simp only [ArgType.has, Bool.and_eq_true, decide_eq_true_eq]
      omega
  | u64 u =>
      have hlt := u.toNat_lt
      simp only [ArgType.has, Bool.and_eq_true, decide_eq_true_eq]
      omega

/-- A database whose encoders do not fail and which takes values of the
declared type only, unless it is SQLite. -/
def strictSqlx : Sqlx where
  encodeError := fun _ _ => none
  takes := fun backend ty v => if backend = .sqlite then !v.isNaN else ty.has v
  encodeError_null := fun _ => rfl
  takes_sqlite := fun ty v h => by simp [h]
  takes_own := fun backend ty v h => by
    rw [ArgType.has_of_hasType h, not_isNaN_of_hasType h]
    simp

/-- The largest `u64` is bound as -1 by SQLite, MySQL gets two values for it,
and an array ends with a panic. -/
theorem binding_changes :
    bindFilterValues strictSqlx .sqlite [.uint 18446744073709551615] =
        .ok [⟨.i64, .integer (-1)⟩] ∧
      ¬BindPreserves strictSqlx .sqlite [.uint 18446744073709551615] ∧
      ¬WaysAgree strictSqlx .mysql (.uint 18446744073709551615) ∧
      ¬WaysAgree strictSqlx .sqlite (.array []) := by
  refine ⟨rfl, ?_, ?_, ?_⟩
  · rw [bindPreserves_iff]
    rintro (⟨v, hv, hrefused⟩ | hkeeps)
    · obtain rfl := List.mem_singleton.mp hv
      exact hrefused _ rfl rfl
    · exact absurd (hkeeps _ (List.mem_singleton_self _)) (by simp only [KeepsValue]; decide)
  · rw [waysAgree_iff]
    rintro ⟨_, _, -, -, -, -, -, hfits, -⟩
    exact absurd (hfits _ rfl rfl) (by decide)
  · rw [waysAgree_iff]
    rintro ⟨_, _, hsent, -⟩
    cases hsent

end SqlxData
