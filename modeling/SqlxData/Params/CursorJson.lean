import SqlxData.Lib.Json
import SqlxData.Params.Cursor

/-!
The JSON of a cursor token: the derived `Serialize` and `Deserialize` of the
cursor, its entries and their values.
-/

namespace SqlxData

open Json (Value Error)

/-! ### Values -/

namespace CursorValue

def serialize : CursorValue → Value
  | .int i => Json.ofI64 i
  | .uint u => Json.ofU64 u
  | .float bits => Json.ofF64 bits
  | .bool b => .bool b
  | .string s => .string s

/-- The variants in the order of their declaration. -/
def readers : List (Value → Except Error CursorValue) :=
  [fun j => (Json.toI64 j).map .int, fun j => (Json.toU64 j).map .uint,
    fun j => (Json.toF64 j).map .float, fun j => (Json.toBool j).map .bool,
    fun j => (Json.toStr j).map .string]

def deserialize : Value → Except Error CursorValue := Json.untagged "CursorValue" readers

/-- What comes back: an unsigned number that fits `i64` is read as `Int`. -/
def reread : CursorValue → CursorValue
  | .uint u => if u ≤ Int64.maxValue.toUInt64 then .int u.toInt64 else .uint u
  | v => v

theorem deserialize_serialize {v : CursorValue} (h : ∀ bits, v ≠ .float bits) :
    deserialize v.serialize = .ok v.reread := by
  rw [deserialize, readers]
  cases v with
  | int i =>
      have hint : (Json.toI64 (Json.ofI64 i)).map CursorValue.int = .ok (.int i) := by
        rw [Json.toI64_ofI64]
        rfl
      exact Json.untagged_of_ok hint
  | uint u =>
      rw [serialize, reread]
      split
      · rename_i hmax
        refine Json.untagged_of_ok ?_
        rw [Json.toI64_ofU64, if_pos hmax]
        rfl
      · rename_i hmax
        have hint : (Json.toI64 (Json.ofU64 u)).map CursorValue.int = .error .invalidValue := by
          rw [Json.toI64_ofU64, if_neg hmax]
          rfl
        rw [Json.untagged_of_error hint]
        rfl
  | float bits => exact absurd rfl (h bits)
  | bool b => rfl
  | string s => rfl

theorem reread_eq_self_iff (v : CursorValue) :
    v.reread = v ↔ ∀ u, v = .uint u → Int64.maxValue.toUInt64 < u := by
  cases v with
  | uint u =>
      rw [reread]
      split
      · rename_i hmax
        exact iff_of_false (fun h => by cases h) fun h => absurd (h u rfl) (UInt64.not_lt.mpr hmax)
      · rename_i hmax
        refine iff_of_true rfl fun u' hu => ?_
        obtain rfl := CursorValue.uint.inj hu
        exact UInt64.not_le.mp hmax
  | int | float | bool | string => exact iff_of_true rfl fun u hu => by cases hu

end CursorValue

/-! ### Entries -/

namespace CursorEntry

def serialize (e : CursorEntry) : Value := .object [("value", e.value.serialize)]

def visit (value : Option CursorValue) (name : String) (j : Value) :
    Except Error (Option CursorValue) :=
  match name with
  | "value" => Json.setField "value" value CursorValue.deserialize j
  | _ => .ok value

/-- A derived reader takes an object or an array of the fields. -/
def deserialize : Value → Except Error CursorEntry
  | .object fields => do
      let value ← Json.visitMap visit none fields
      let value ← Json.required "value" value
      .ok ⟨value⟩
  | .array items => do
      let (value, items) ← Json.nextElement 0 CursorValue.deserialize items
      Json.endSeq items
      .ok ⟨value⟩
  | _ => .error .invalidType

def reread (e : CursorEntry) : CursorEntry := ⟨e.value.reread⟩

theorem deserialize_serialize {e : CursorEntry} (h : ∀ bits, e.value ≠ .float bits) :
    deserialize e.serialize = .ok e.reread := by
  have hvisit : Json.visitMap visit none [("value", e.value.serialize)] =
      .ok (some e.value.reread) := by
    rw [Json.visitMap, List.foldlM_cons, visit, Json.setField,
      CursorValue.deserialize_serialize h]
    rfl
  rw [serialize, deserialize, hvisit]
  rfl

theorem reread_eq_self_iff (e : CursorEntry) :
    e.reread = e ↔ ∀ u, e.value = .uint u → Int64.maxValue.toUInt64 < u := by
  rw [← CursorValue.reread_eq_self_iff, reread]
  exact ⟨congrArg CursorEntry.value, congrArg CursorEntry.mk⟩

end CursorEntry

/-! ### Cursors -/

namespace CursorData

def serialize (c : CursorData) : Value :=
  .object (Json.fieldUnless c.entries.isEmpty "entries"
      (Json.ofList CursorEntry.serialize c.entries) ++
    Json.fieldUnless c.version.isNone "version" (Json.ofOption Json.ofU8 c.version) ++
    Json.fieldUnless c.fingerprint.isNone "fingerprint" (Json.ofOption Json.ofU64 c.fingerprint))

/-- The fields that have been read. -/
structure Fields where
  entries : Option (List CursorEntry)
  version : Option (Option UInt8)
  fingerprint : Option (Option UInt64)

def visit (st : Fields) (name : String) (j : Value) : Except Error Fields :=
  match name with
  | "entries" => do
      let entries ← Json.setField "entries" st.entries (Json.toList CursorEntry.deserialize) j
      .ok { st with entries := entries }
  | "version" => do
      let version ← Json.setField "version" st.version (Json.toOption Json.toU8) j
      .ok { st with version := version }
  | "fingerprint" => do
      let fingerprint ← Json.setField "fingerprint" st.fingerprint (Json.toOption Json.toU64) j
      .ok { st with fingerprint := fingerprint }
  | _ => .ok st

/-- A missing `Option` is `None`; there is no default for the entries. -/
def finish (st : Fields) : Except Error CursorData := do
  let entries ← Json.required "entries" st.entries
  .ok ⟨entries, st.version.join, st.fingerprint.join⟩

def deserialize : Value → Except Error CursorData
  | .object fields => do
      let st ← Json.visitMap visit ⟨none, none, none⟩ fields
      finish st
  | .array items => do
      let (entries, items) ← Json.nextElement 0 (Json.toList CursorEntry.deserialize) items
      let (version, items) ← Json.nextElement 1 (Json.toOption Json.toU8) items
      let (fingerprint, items) ← Json.nextElement 2 (Json.toOption Json.toU64) items
      Json.endSeq items
      .ok ⟨entries, version, fingerprint⟩
  | _ => .error .invalidType

theorem visit_entries {entries : List CursorEntry}
    (h : ∀ e ∈ entries, ∀ bits, e.value ≠ .float bits) :
    Json.visitMap visit ⟨none, none, none⟩ (Json.fieldUnless entries.isEmpty "entries"
        (Json.ofList CursorEntry.serialize entries)) =
      .ok ⟨if entries = [] then none else some (entries.map CursorEntry.reread), none, none⟩ := by
  rw [Json.visitMap_fieldUnless]
  cases hentries : entries with
  | nil => rfl
  | cons e rest =>
      have hread : Json.toList CursorEntry.deserialize
          (Json.ofList CursorEntry.serialize (e :: rest)) =
            .ok ((e :: rest).map CursorEntry.reread) :=
        Json.toList_ofList fun e he => CursorEntry.deserialize_serialize (h e (hentries ▸ he))
      rw [List.isEmpty_cons, if_neg Bool.false_ne_true, if_neg (List.cons_ne_nil e rest), visit,
        Json.setField, hread]
      rfl

theorem visit_version (entries : Option (List CursorEntry)) (version : Option UInt8) :
    Json.visitMap visit ⟨entries, none, none⟩
        (Json.fieldUnless version.isNone "version" (Json.ofOption Json.ofU8 version)) =
      .ok ⟨entries, version.map some, none⟩ := by
  rw [Json.visitMap_fieldUnless]
  cases version with
  | none => rfl
  | some n =>
      have hread : Json.toOption Json.toU8 (Json.ofOption Json.ofU8 (some n)) = .ok (some n) :=
        Json.toOption_ofOption (Json.toU8_ofU8 n) (fun h => by cases h)
      rw [Option.isNone_some, if_neg Bool.false_ne_true, visit, Json.setField, hread]
      rfl

theorem visit_fingerprint (entries : Option (List CursorEntry)) (version : Option (Option UInt8))
    (fingerprint : Option UInt64) :
    Json.visitMap visit ⟨entries, version, none⟩
        (Json.fieldUnless fingerprint.isNone "fingerprint"
          (Json.ofOption Json.ofU64 fingerprint)) =
      .ok ⟨entries, version, fingerprint.map some⟩ := by
  rw [Json.visitMap_fieldUnless]
  cases fingerprint with
  | none => rfl
  | some n => rfl

/-- What a token gives back: an error where there are no entries, and otherwise
the cursor with its values read again. -/
theorem deserialize_serialize {c : CursorData}
    (h : ∀ e ∈ c.entries, ∀ bits, e.value ≠ .float bits) :
    deserialize c.serialize =
      if c.entries = [] then .error (.missingField "entries")
      else .ok { c with entries := c.entries.map CursorEntry.reread } := by
  have hjoin : ∀ {α : Type} (x : Option α), (x.map some).join = x := fun x => by cases x <;> rfl
  rw [serialize, deserialize, Json.visitMap_append, Json.visitMap_append, visit_entries h]
  simp only [Except.bind, visit_version, visit_fingerprint]
  change finish _ = _
  rw [finish]
  split
  · rfl
  · simp only [Json.required, hjoin]
    rfl

end CursorData

/-- A cursor comes back as it is exactly when it has an entry and none of its
unsigned values fits `i64`. -/
theorem cursor_roundtrip_iff {c : CursorData}
    (h : ∀ e ∈ c.entries, ∀ bits, e.value ≠ .float bits) :
    CursorData.deserialize c.serialize = .ok c ↔
      c.entries ≠ [] ∧
        ∀ e ∈ c.entries, ∀ u, e.value = .uint u → Int64.maxValue.toUInt64 < u := by
  rw [CursorData.deserialize_serialize h]
  split
  · rename_i hnil
    exact iff_of_false (fun h => by cases h) fun h => h.1 hnil
  · rename_i hne
    have hmap : c.entries.map CursorEntry.reread = c.entries ↔
        ∀ e ∈ c.entries, ∀ u, e.value = .uint u → Int64.maxValue.toUInt64 < u := by
      simp only [← CursorEntry.reread_eq_self_iff]
      have hinj := List.map_inj_left (f := CursorEntry.reread) (g := id) (l := c.entries)
      rwa [List.map_id] at hinj
    rw [← hmap, Except.ok.injEq]
    constructor
    · intro heq
      exact ⟨hne, congrArg CursorData.entries heq⟩
    · rintro ⟨-, heq⟩
      rw [heq]

/-- A cursor with values of every kind. -/
theorem cursor_roundtrip_pinned :
    CursorData.deserialize (CursorData.serialize
        ⟨[⟨.int (-7)⟩, ⟨.uint 18446744073709551615⟩, ⟨.bool true⟩, ⟨.string "a"⟩], some 1, none⟩) =
      .ok ⟨[⟨.int (-7)⟩, ⟨.uint 18446744073709551615⟩, ⟨.bool true⟩, ⟨.string "a"⟩], some 1, none⟩ :=
  (cursor_roundtrip_iff (by simp)).mpr ⟨by simp, by simp; decide⟩

/-- `Cursor::new()` cannot be read back, and `UInt(5)` comes back as `Int(5)`. -/
theorem cursor_changes :
    CursorData.deserialize (CursorData.serialize ⟨[], none, none⟩) =
        .error (.missingField "entries") ∧
      CursorData.deserialize (CursorData.serialize ⟨[⟨.uint 5⟩], none, none⟩) =
        .ok ⟨[⟨.int 5⟩], none, none⟩ ∧
      (⟨[⟨.int 5⟩], none, none⟩ : CursorData) ≠ ⟨[⟨.uint 5⟩], none, none⟩ :=
  ⟨rfl, rfl, by decide⟩

end SqlxData
