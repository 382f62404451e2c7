import Mathlib.Data.List.Basic

/-!
JSON values as `serde_json` reads back what it has printed, and the parts of
the readers that `serde` derives: of numbers, lists, optional values, the
fields of a struct and an untagged enum.
-/

namespace Json

/-- A number without a sign, with one, or with a point or an exponent. -/
inductive Number
  | posInt (u : UInt64)
  | negInt (i : Int64)
  /-- An `f64`, given by its bits. -/
  | float (bits : UInt64)

inductive Value
  | null
  | bool (b : Bool)
  | number (n : Number)
  | string (s : String)
  | array (items : List Value)
  | object (fields : List (String × Value))

inductive Error
  | invalidType
  | invalidValue
  | invalidLength (length : ℕ)
  | trailingCharacters
  | missingField (name : String)
  | duplicateField (name : String)
  | noVariant (name : String)
  deriving DecidableEq

variable {α : Type}

/-! ### Writing -/

def ofI64 (i : Int64) : Value :=
  .number (if 0 ≤ i then .posInt i.toUInt64 else .negInt i)

def ofU64 (u : UInt64) : Value := .number (.posInt u)

def ofU8 (u : UInt8) : Value := .number (.posInt u.toUInt64)

/-- The bits of the exponent of an `f64`. -/
def exponentMask : UInt64 := 0x7FF0000000000000

/-- An infinite number and `NaN` are written as `null`. -/
def ofF64 (bits : UInt64) : Value :=
  if bits &&& exponentMask = exponentMask then .null else .number (.float bits)

def ofList (write : α → Value) (xs : List α) : Value := .array (xs.map write)

def ofOption (write : α → Value) : Option α → Value
  | none => .null
  | some a => write a

/-- A field with `skip_serializing_if`. -/
def fieldUnless (skip : Bool) (name : String) (value : Value) : List (String × Value) :=
  if skip then [] else [(name, value)]

/-! ### Reading -/

def toBool : Value → Except Error Bool
  | .bool b => .ok b
  | _ => .error .invalidType

def toI64 : Value → Except Error Int64
  | .number (.posInt u) =>
      if u ≤ Int64.maxValue.toUInt64 then .ok u.toInt64 else .error .invalidValue
  | .number (.negInt i) => .ok i
  | _ => .error .invalidType

def toU64 : Value → Except Error UInt64
  | .number (.posInt u) => .ok u
  | .number (.negInt i) => if 0 ≤ i then .ok i.toUInt64 else .error .invalidValue
  | _ => .error .invalidType

def toU8 : Value → Except Error UInt8
  | .number (.posInt u) => if u ≤ 255 then .ok u.toUInt8 else .error .invalidValue
  | .number (.negInt i) =>
      if 0 ≤ i ∧ i ≤ 255 then .ok i.toUInt64.toUInt8 else .error .invalidValue
  | _ => .error .invalidType

def toF64 : Value → Except Error UInt64
  | .number (.posInt u) => .ok u.toFloat.toBits
  | .number (.negInt i) => .ok i.toFloat.toBits
  | .number (.float bits) => .ok bits
  | _ => .error .invalidType

def toStr : Value → Except Error String
  | .string s => .ok s
  | _ => .error .invalidType

def toList (read : Value → Except Error α) : Value → Except Error (List α)
  | .array items => items.mapM read
  | _ => .error .invalidType

def toOption (read : Value → Except Error α) : Value → Except Error (Option α)
  | .null => .ok none
  | j => (read j).map some

/-- An untagged enum: the first variant that reads the value. -/
def untagged (name : String) : List (Value → Except Error α) → Value → Except Error α
  | [], _ => .error (.noVariant name)
  | read :: rest, j =>
      match read j with
      | .ok a => .ok a
      | .error _ => untagged name rest j

/-! ### Structs -/

/-- The loop over the fields of an object. -/
def visitMap {σ : Type} (visit : σ → String → Value → Except Error σ) (start : σ)
    (fields : List (String × Value)) : Except Error σ :=
  fields.foldlM (fun st field => visit st field.1 field.2) start

/-- A field that may be read once. -/
def setField (name : String) (current : Option α) (read : Value → Except Error α) (j : Value) :
    Except Error (Option α) :=
  match current with
  | some _ => .error (.duplicateField name)
  | none => (read j).map some

/-- A field without a default. -/
def required (name : String) : Option α → Except Error α
  | some a => .ok a
  | none => .error (.missingField name)

/-- The next field of a struct that is read from an array. -/
def nextElement (index : ℕ) (read : Value → Except Error α) :
    List Value → Except Error (α × List Value)
  | [] => .error (.invalidLength index)
  | j :: rest => do
      let a ← read j
      .ok (a, rest)

def endSeq : List Value → Except Error Unit
  | [] => .ok ()
  | _ :: _ => .error .trailingCharacters

theorem visitMap_append {σ : Type} (visit : σ → String → Value → Except Error σ) (start : σ)
    (fields rest : List (String × Value)) :
    visitMap visit start (fields ++ rest) =
      (visitMap visit start fields).bind fun st => visitMap visit st rest :=
  List.foldlM_append

theorem visitMap_fieldUnless {σ : Type} (visit : σ → String → Value → Except Error σ) (start : σ)
    (skip : Bool) (name : String) (j : Value) :
    visitMap visit start (fieldUnless skip name j) =
      if skip then .ok start else visit start name j := by
  cases skip with
  | true => rfl
  | false => exact bind_pure _

/-! ### Round trips -/

theorem toUInt64_le_of_nonneg {i : Int64} (h : 0 ≤ i) :
    i.toUInt64 ≤ Int64.maxValue.toUInt64 := by
  have hpos : 0 ≤ i.toInt := Int64.le_iff_toInt_le.mp h
  have hlt := i.toInt_lt
  have hmax : Int64.maxValue.toUInt64.toNat = 9223372036854775807 := rfl
  have hint : i.toInt = i.toUInt64.toBitVec.toInt := rfl
  have hnat : i.toUInt64.toNat = i.toUInt64.toBitVec.toNat := rfl
  rw [BitVec.toInt_eq_toNat_cond] at hint
  rw [UInt64.le_iff_toNat_le]
  split at hint <;> omega

theorem toI64_ofI64 (i : Int64) : toI64 (ofI64 i) = .ok i := by
  rw [ofI64]
  split
  · rename_i h
    rw [toI64, if_pos (toUInt64_le_of_nonneg h)]
    rfl
  · rfl

theorem toI64_ofU64 (u : UInt64) :
    toI64 (ofU64 u) =
      if u ≤ Int64.maxValue.toUInt64 then .ok u.toInt64 else .error .invalidValue := rfl

theorem toU8_ofU8 (u : UInt8) : toU8 (ofU8 u) = .ok u := by
  have hle : u.toUInt64 ≤ 255 := by
    have hlt := u.toNat_lt
    rw [UInt64.le_iff_toNat_le, UInt8.toNat_toUInt64]
    exact Nat.le_of_lt_succ hlt
  rw [ofU8, toU8, if_pos hle, UInt8.toUInt8_toUInt64]

theorem toOption_ofOption {read : Value → Except Error α} {write : α → Value} {x : α}
    (hread : read (write x) = .ok x) (hnull : write x ≠ .null) :
    toOption read (ofOption write (some x)) = .ok (some x) := by
  rw [ofOption, toOption.eq_2 _ _ hnull, hread]
  rfl

theorem mapM_eq_ok {ε β : Type} {f : α → Except ε β} {g : α → β} {xs : List α}
    (h : ∀ x ∈ xs, f x = .ok (g x)) : xs.mapM f = .ok (xs.map g) := by
  induction xs with
  | nil => rfl
  | cons x xs ih =>
      obtain ⟨hx, hxs⟩ := List.forall_mem_cons.mp h
      rw [List.mapM_cons, hx, ih hxs]
      rfl

theorem toList_ofList {β : Type} {read : Value → Except Error β} {write : α → Value}
    {g : α → β} {xs : List α} (h : ∀ x ∈ xs, read (write x) = .ok (g x)) :
    toList read (ofList write xs) = .ok (xs.map g) := by
  rw [ofList, toList, List.mapM_map]
  exact mapM_eq_ok h

theorem untagged_of_ok {name : String} {read : Value → Except Error α}
    {rest : List (Value → Except Error α)} {j : Value} {a : α} (h : read j = .ok a) :
    untagged name (read :: rest) j = .ok a := by
  rw [untagged, h]

theorem untagged_of_error {name : String} {read : Value → Except Error α}
    {rest : List (Value → Except Error α)} {j : Value} {e : Error} (h : read j = .error e) :
    untagged name (read :: rest) j = untagged name rest j := by
  rw [untagged, h]

end Json
