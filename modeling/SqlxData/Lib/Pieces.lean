import Mathlib.Data.List.Basic
import Mathlib.Data.List.Nodup

/-!
A list cut into pieces of one length. The pieces are counted from 0; the last
one that is not empty may be shorter.
-/

namespace SqlxData.Pieces

variable {α : Type*} (l : List α) (size : ℕ)

/-- The piece with number `i`. -/
def piece (i : ℕ) : List α := (l.drop (i * size)).take size

theorem length_piece_le (i : ℕ) : (piece l size i).length ≤ size := List.length_take_le _ _

theorem piece_append_drop (i : ℕ) : piece l size i ++ l.drop ((i + 1) * size) = l.drop (i * size) := by
  rw [piece, Nat.succ_mul, ← List.drop_drop, List.take_append_drop]

/-- The first pieces together are a prefix. -/
theorem flatMap_piece (k : ℕ) : (List.range k).flatMap (piece l size) = l.take (k * size) := by
  induction k with
  | zero => simp
  | succ k ih =>
      rw [List.range_succ, List.flatMap_append, ih, List.flatMap_singleton, Nat.succ_mul,
        List.take_add, piece]

variable {l size}

theorem piece_eq_nil_iff (hsize : 0 < size) {i : ℕ} : piece l size i = [] ↔ l.length ≤ i * size := by
  rw [piece, List.take_eq_nil_iff, List.drop_eq_nil_iff]
  exact or_iff_right (Nat.ne_of_gt hsize)

/-- Two pieces one behind the other can be found in the list. -/
theorem sublist_of_lt {i j : ℕ} (h : i < j) : (piece l size i ++ piece l size j).Sublist l := by
  obtain ⟨k, rfl⟩ := Nat.exists_eq_add_of_le (Nat.succ_le_of_lt h)
  have hbehind : (piece l size (i + 1 + k)).Sublist (l.drop ((i + 1) * size)) := by
    rw [piece, Nat.add_mul, ← List.drop_drop]
    exact (List.take_sublist _ _).trans (List.drop_sublist _ _)
  have hboth := hbehind.append_left (piece l size i)
  rw [piece_append_drop] at hboth
  exact hboth.trans (List.drop_sublist _ _)

theorem disjoint_of_ne (hnodup : l.Nodup) {i j : ℕ} (h : i ≠ j) :
    (piece l size i).Disjoint (piece l size j) := by
  rcases Nat.lt_or_gt_of_ne h with hlt | hlt
  · exact List.disjoint_of_nodup_append (hnodup.sublist (sublist_of_lt hlt))
  · exact List.disjoint_symm (List.disjoint_of_nodup_append (hnodup.sublist (sublist_of_lt hlt)))

/-- An offset that is cut off behind the end finds the same piece. -/
theorem drop_min {cap : ℕ} (hcap : l.length ≤ cap) (n : ℕ) : l.drop (min n cap) = l.drop n := by
  rcases Nat.le_total n cap with h | h
  · rw [Nat.min_eq_left h]
  · rw [Nat.min_eq_right h, List.drop_eq_nil_of_le hcap, List.drop_eq_nil_of_le (Nat.le_trans hcap h)]

/-- The number of pieces. -/
def count (n size : ℕ) : ℕ := (n + (size - 1)) / size

theorem lt_count_iff (hsize : 0 < size) {n i : ℕ} : i < count n size ↔ i * size < n := by
  rw [count, Nat.lt_iff_add_one_le, Nat.le_div_iff_mul_le hsize, Nat.succ_mul]
  omega

theorem count_le (hsize : 0 < size) (n : ℕ) : count n size ≤ n := by
  refine Nat.le_of_not_lt fun h => ?_
  have hlt := (lt_count_iff hsize).mp h
  exact absurd (Nat.le_mul_of_pos_right n hsize) (Nat.not_le.mpr hlt)

/-- All the pieces that are not empty are the list. -/
theorem flatMap_count (hsize : 0 < size) :
    (List.range (count l.length size)).flatMap (piece l size) = l := by
  rw [flatMap_piece]
  refine List.take_of_length_le (Nat.le_of_not_lt fun h => ?_)
  exact absurd ((lt_count_iff hsize).mpr h) (Nat.lt_irrefl _)

end SqlxData.Pieces
