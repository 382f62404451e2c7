import SqlxData.Params.Builder
import Mathlib.Algebra.Order.Floor.Div

/-!
The responses of paged methods that count pages: a `Serial` page knows the
total, a `Slice` page only whether there is a next one.
-/

namespace SqlxData

def checkedAdd (a b : Int64) : Option Int64 :=
  if -2 ^ 63 ≤ a.toInt + b.toInt ∧ a.toInt + b.toInt < 2 ^ 63 then some (a + b) else none

/-- Rounds towards zero. -/
def checkedDiv (a b : Int64) : Option Int64 :=
  if b = 0 ∨ a = Int64.minValue ∧ b = -1 then none else some (a / b)

/-- `u32::try_from(i64)`. -/
def toU32 (a : Int64) : Option UInt32 :=
  if 0 ≤ a.toInt ∧ a.toInt < 2 ^ 32 then some (UInt32.ofNat a.toInt.toNat) else none

/-- `u32 as i64`. -/
def asI64 (n : UInt32) : Int64 := Int64.ofNat n.toNat

namespace Params

def isDisableTotalCount (p : Params) : Bool :=
  match p.pagination with
  | some (.slice slice) => slice.disableTotalCount
  | _ => false

/-- `page_size` of both responses. -/
def pageSize (p : Params) : UInt32 := max (p.limit.getD 20) 1

end Params

/-! ### Serial pages -/

structure Serial (Row : Type) where
  data : List Row
  page : UInt32
  size : UInt32
  totalItems : Int64
  totalPages : UInt32

namespace Serial

variable {Row : Type}

def calculateTotalPages (totalItems : Int64) (size : UInt32) : UInt32 :=
  ((checkedAdd totalItems (asI64 size - 1)).bind fun sum =>
    (checkedDiv sum (asI64 size)).bind fun pages => toU32 (max pages 0)).getD 1

def new (data : List Row) (params : Params) (totalElements : Int64) : Serial Row :=
  match params.pagination with
  | some (.serial serial) =>
      let size := max serial.limit 1
      ⟨data, serial.page, size, totalElements, calculateTotalPages totalElements size⟩
  | _ => ⟨data, 1, params.pageSize, totalElements, 1⟩

end Serial

/-! ### Slices -/

structure Slice (Row : Type) where
  data : List Row
  page : UInt32
  size : UInt32
  hasNext : Bool
  hasPrevious : Bool
  totalItems : Option Int64

namespace Slice

variable {Row : Type}

def pageOffset (params : Params) (size : UInt32) : UInt32 :=
  ((params.offset.bind fun offset => (checkedDiv (asI64 offset) (asI64 size)).bind
    (checkedAdd · 1)).getD 1).toUInt64.toUInt32

/-- Whether there was more than a page, and the page. -/
def trimToPage (data : List Row) (size : UInt32) : Bool × List Row :=
  if data.length > size.toNat then (true, data.take size.toNat) else (false, data)

def new (data : List Row) (params : Params) (totalElements : Int64) : Slice Row :=
  let size := params.pageSize
  let (hasNext, data) := trimToPage data size
  match params.pagination with
  | some (.slice slice) =>
      ⟨data, slice.page, size, hasNext, 1 < slice.page,
        if slice.disableTotalCount then none else some totalElements⟩
  | _ =>
      let page := pageOffset params size
      ⟨data, page, size, hasNext, 1 < page, some totalElements⟩

end Slice

/-! ### Sizes and offsets -/

theorem toNat_max_one (n : UInt32) : (max n 1).toNat = max n.toNat 1 := by
  show (if n ≤ 1 then 1 else n).toNat = max n.toNat 1
  split
  · rename_i h
    rw [UInt32.le_iff_toNat_le, UInt32.toNat_one] at h
    rw [UInt32.toNat_one]
    omega
  · rename_i h
    rw [UInt32.le_iff_toNat_le, UInt32.toNat_one] at h
    omega

theorem max_one_of_pos {n : UInt32} (h : 1 ≤ n.toNat) : max n 1 = n := by
  apply UInt32.toNat_inj.mp
  rw [toNat_max_one]
  omega

theorem toNat_saturatingSub (a b : UInt32) : (saturatingSub a b).toNat = a.toNat - b.toNat := by
  rw [saturatingSub]
  split
  · rename_i h
    rw [UInt32.lt_iff_toNat_lt] at h
    rw [UInt32.toNat_zero]
    omega
  · rename_i h
    rw [UInt32.lt_iff_toNat_lt] at h
    exact UInt32.toNat_sub_of_le a b (UInt32.le_iff_toNat_le.mpr (by omega))

/-- The product, or the greatest number if there is none. -/
theorem toNat_saturatingMul (a b : UInt32) :
    (saturatingMul a b).toNat = min (a.toNat * b.toNat) (2 ^ 32 - 1) := by
  rw [saturatingMul]
  split
  · rename_i h
    rw [UInt32.toNat_mul, Nat.mod_eq_of_lt h]
    omega
  · have hmax : (0xFFFFFFFF : UInt32).toNat = 2 ^ 32 - 1 := rfl
    omega

/-! ### The number of pages -/

theorem toInt_asI64 (n : UInt32) : (asI64 n).toInt = n.toNat := by
  have := n.toNat_lt
  exact Int64.toInt_ofNat_of_lt (by omega)

theorem toInt_of_checkedAdd {a b : Int64} (hlow : -2 ^ 63 ≤ a.toInt + b.toInt)
    (hhigh : a.toInt + b.toInt < 2 ^ 63) :
    ∃ sum, checkedAdd a b = some sum ∧ sum.toInt = a.toInt + b.toInt := by
  refine ⟨a + b, if_pos ⟨hlow, hhigh⟩, ?_⟩
  rw [Int64.toInt_add, Int.bmod_eq_of_le] <;> omega

theorem toInt_of_checkedDiv {a b : Int64} (ha : 0 ≤ a.toInt) (hb : 0 < b.toInt) :
    ∃ quotient, checkedDiv a b = some quotient ∧ quotient.toInt = a.toInt / b.toInt := by
  have hzero : b ≠ 0 := by
    rintro rfl
    simp at hb
  have hneg : b ≠ -1 := by
    rintro rfl
    exact absurd hb (by decide)
  refine ⟨a / b, if_neg (by simp [hzero, hneg]), ?_⟩
  rw [Int64.toInt_div_of_ne_right a b hneg, Int.tdiv_eq_ediv_of_nonneg ha]

theorem max_zero_of_nonneg {a : Int64} (h : 0 ≤ a.toInt) : max a 0 = a := by
  show (if a ≤ 0 then 0 else a) = a
  split
  · rename_i hle
    rw [Int64.le_iff_toInt_le, Int64.toInt_zero] at hle
    apply Int64.toInt_inj.mp
    rw [Int64.toInt_zero]
    omega
  · rfl

theorem toNat_of_toU32 {a : Int64} (hlow : 0 ≤ a.toInt) (hhigh : a.toInt < 2 ^ 32) :
    ∃ n : UInt32, toU32 (max a 0) = some n ∧ (n.toNat : Int) = a.toInt := by
  refine ⟨UInt32.ofNat a.toInt.toNat,
    by rw [max_zero_of_nonneg hlow, toU32, if_pos ⟨hlow, hhigh⟩], ?_⟩
  have hsize : a.toInt.toNat < UInt32.size := by
    rw [UInt32.size]
    omega
  rw [UInt32.toNat_ofNat_of_lt' hsize]
  omega

theorem toU32_eq_none {a : Int64} (h : 2 ^ 32 ≤ a.toInt) : toU32 (max a 0) = none := by
  rw [max_zero_of_nonneg (by omega), toU32, if_neg (by omega)]

/-- Rounded up, unless the sum or the page number is out of range. -/
theorem toNat_calculateTotalPages_eq {total : Int64} {n : ℕ} (htotal : total.toInt = n)
    {size : UInt32} (hsize : 1 ≤ size.toNat) :
    (Serial.calculateTotalPages total size).toNat =
      if n + (size.toNat - 1) < 2 ^ 63 ∧ (n + (size.toNat - 1)) / size.toNat < 2 ^ 32 then
        (n + (size.toNat - 1)) / size.toNat
      else 1 := by
  have hlt := size.toNat_lt
  have hone : (asI64 size - 1).toInt = size.toNat - 1 := by
    rw [Int64.toInt_sub, toInt_asI64, Int64.toInt_one, Int.bmod_eq_of_le] <;> omega
  by_cases hfits : n + (size.toNat - 1) < 2 ^ 63
  · obtain ⟨sum, hsum, hsumValue⟩ := @toInt_of_checkedAdd total (asI64 size - 1)
      (by rw [htotal, hone]; omega) (by rw [htotal, hone]; omega)
    rw [htotal, hone] at hsumValue
    obtain ⟨pages, hpages, hpagesValue⟩ := @toInt_of_checkedDiv sum (asI64 size)
      (by omega) (by rw [toInt_asI64]; omega)
    have hquotient : pages.toInt = ((n + (size.toNat - 1)) / size.toNat : ℕ) := by
      rw [hpagesValue, hsumValue, toInt_asI64]
      rw [Int.natCast_ediv, Int.natCast_add, Int.natCast_sub hsize]
      rfl
    rw [Serial.calculateTotalPages, hsum, Option.bind_some, hpages, Option.bind_some]
    by_cases hcount : (n + (size.toNat - 1)) / size.toNat < 2 ^ 32
    · obtain ⟨count, hcountSome, hcountValue⟩ := @toNat_of_toU32 pages
        (by rw [hquotient]; exact Int.natCast_nonneg _)
        (by rw [hquotient]; exact Int.ofNat_lt.mpr hcount)
      rw [hcountSome, Option.getD_some, if_pos ⟨hfits, hcount⟩]
      exact Int.ofNat_inj.mp (hcountValue.trans hquotient)
    · have hnone : toU32 (max pages 0) = none := by
        apply toU32_eq_none
        rw [hquotient]
        exact Int.ofNat_le.mpr (Nat.le_of_not_lt hcount)
      rw [hnone, if_neg fun h => hcount h.2]
      rfl
  · have hsum : checkedAdd total (asI64 size - 1) = none := by
      rw [checkedAdd, htotal, hone, if_neg (by omega)]
    rw [Serial.calculateTotalPages, hsum, if_neg fun h => hfits h.1]
    rfl

/-- Rounded up, for every total whose pages a page number can count. -/
theorem toNat_calculateTotalPages {total : Int64} {n : ℕ} (htotal : total.toInt = n)
    (hn : n < 2 ^ 32) {size : UInt32} (hsize : 1 ≤ size.toNat) :
    (Serial.calculateTotalPages total size).toNat = (n + (size.toNat - 1)) / size.toNat := by
  have hlt := size.toNat_lt
  have hbound : (n + (size.toNat - 1)) / size.toNat ≤ n := by
    have hle : n ≤ size.toNat * n := Nat.le_mul_of_pos_left n hsize
    refine Nat.le_of_lt_succ (Nat.div_lt_of_lt_mul ?_)
    rw [Nat.mul_succ]
    omega
  rw [toNat_calculateTotalPages_eq htotal hsize, if_pos ⟨by omega, by omega⟩]

/-! ### Exact or saturated -/

/-- As many pages as the items fill, whatever a page number can count. -/
def pageCount (totalItems : Int64) (size : UInt32) : ℕ := totalItems.toInt.toNat ⌈/⌉ size.toNat

theorem pageCount_eq {totalItems : Int64} {n : ℕ} (hitems : totalItems.toInt = n) {size : UInt32}
    (hsize : 1 ≤ size.toNat) :
    pageCount totalItems size = (n + (size.toNat - 1)) / size.toNat := by
  rw [pageCount, Nat.ceilDiv_eq_add_pred_div, hitems, Int.toNat_natCast, Nat.add_sub_assoc hsize]

/-- The total of pages is the number of pages if that fits, the greatest page
number at least if it does not, and no smaller total of items has more. -/
structure PagesExact (totalItems : Int64) (size : UInt32) : Prop where
  exact : pageCount totalItems size < 2 ^ 32 →
    (Serial.calculateTotalPages totalItems size).toNat = pageCount totalItems size
  saturated : 2 ^ 32 ≤ pageCount totalItems size →
    2 ^ 32 - 1 ≤ (Serial.calculateTotalPages totalItems size).toNat
  monotone : ∀ fewer : Int64, 0 ≤ fewer.toInt → fewer.toInt ≤ totalItems.toInt →
    (Serial.calculateTotalPages fewer size).toNat ≤
      (Serial.calculateTotalPages totalItems size).toNat

/-- The total of pages is exact when neither the sum that is divided nor the
number of pages is out of range; it is a single page otherwise. -/
theorem pages_exact_iff {totalItems : Int64} {size : UInt32} (hitems : 0 ≤ totalItems.toInt)
    (hsize : 1 ≤ size.toNat) :
    PagesExact totalItems size ↔
      totalItems.toInt + (size.toNat - 1) < 2 ^ 63 ∧ pageCount totalItems size < 2 ^ 32 := by
  obtain ⟨n, hn⟩ := Int.eq_ofNat_of_zero_le hitems
  have hlt := size.toNat_lt
  have hcalculate := toNat_calculateTotalPages_eq hn hsize
  have hcount := pageCount_eq hn hsize
  rw [← hcount] at hcalculate
  have hsum : totalItems.toInt + (size.toNat - 1) < 2 ^ 63 ↔ n + (size.toNat - 1) < 2 ^ 63 := by
    omega
  rw [hsum]
  constructor
  · intro h
    by_contra hrange
    rw [if_neg hrange] at hcalculate
    by_cases hfits : pageCount totalItems size < 2 ^ 32
    · -- the sum is out of range, so there are two pages at least
      have hover : ¬n + (size.toNat - 1) < 2 ^ 63 := fun hover => hrange ⟨hover, hfits⟩
      have htwo : 2 ≤ pageCount totalItems size := by
        rw [hcount, Nat.le_div_iff_mul_le hsize]
        omega
      have hexact := h.exact hfits
      omega
    · have hsaturated := h.saturated (Nat.le_of_not_lt hfits)
      omega
  · rintro ⟨hover, hfits⟩
    rw [if_pos ⟨hover, hfits⟩] at hcalculate
    refine ⟨fun _ => hcalculate, fun hmany => by omega, fun fewer hfewer hle => ?_⟩
    obtain ⟨m, hm⟩ := Int.eq_ofNat_of_zero_le hfewer
    have hdiv : (m + (size.toNat - 1)) / size.toNat ≤ pageCount totalItems size := by
      rw [hcount]
      exact Nat.div_le_div_right (by omega)
    rw [toNat_calculateTotalPages_eq hm hsize, if_pos ⟨by omega, by omega⟩, hcalculate]
    exact hdiv

/-- Three pages of twenty for 41 items. -/
theorem pages_exact_41 : PagesExact 41 20 :=
  (pages_exact_iff (by decide) (by decide)).mpr ⟨by decide, by decide⟩

/-- One more page than a page number can count, and a total near the greatest
one: a single page is reported. -/
theorem pages_lost :
    ¬PagesExact 0x100000000 1 ∧ ¬PagesExact 0x7FFFFFFFFFFFFFFF 0xFFFFFFFF := by
  constructor
  · intro h
    have hsaturated := h.saturated (by decide)
    exact absurd hsaturated (by decide)
  · intro h
    have hexact := h.exact (by decide)
    exact absurd hexact (by decide)

end SqlxData
