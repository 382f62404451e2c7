import Mathlib.Data.List.Nodup
import Mathlib.Data.List.Range

/-!
Places of a list that survive a removal. The survivors stand in their old
order, so each is found behind as many others as survive below it.
-/

namespace SqlxData.Survivors

variable {α : Type*} {P : ℕ → Prop} [DecidablePred P] {n p i : ℕ}

/-- The places below `n` that survive. -/
def survivors (P : ℕ → Prop) [DecidablePred P] (n : ℕ) : List ℕ := (List.range n).filter P

@[simp] theorem mem_survivors : p ∈ survivors P n ↔ p < n ∧ P p := by simp [survivors]

theorem nodup_survivors : (survivors P n).Nodup := List.nodup_range.filter _

theorem survivors_congr {Q : ℕ → Prop} [DecidablePred Q] (h : ∀ p < n, P p ↔ Q p) :
    survivors P n = survivors Q n :=
  List.filter_congr fun p hp => by simpa using h p (List.mem_range.mp hp)

theorem survivors_eq_iff {Q : ℕ → Prop} [DecidablePred Q] :
    survivors P n = survivors Q n ↔ ∀ p < n, (P p ↔ Q p) := by
  refine ⟨fun h p hp => ?_, survivors_congr⟩
  have hmem : p ∈ survivors P n ↔ p ∈ survivors Q n := by rw [h]
  simpa [hp] using hmem

/-- A survivor is found behind those below it. -/
theorem getElem?_survivors (hlt : p < n) (hp : P p) :
    (survivors P n)[(survivors P p).length]? = some p := by
  obtain ⟨k, rfl⟩ := Nat.exists_eq_add_of_lt hlt
  have hsplit : survivors P (p + k + 1) =
      survivors P p ++ p :: (((List.range k).map (p + ·.succ)).filter P) := by
    rw [survivors, Nat.add_assoc, List.range_add, List.range_succ_eq_map, List.filter_append]
    simp [hp, survivors, Function.comp_def]
  rw [hsplit]
  simp

theorem eq_of_getElem?_survivors (h : (survivors P n)[i]? = some p) :
    i = (survivors P p).length := by
  obtain ⟨hlt, hp⟩ := mem_survivors.mp (List.mem_of_getElem? h)
  have hfound := getElem?_survivors hlt hp
  obtain ⟨hi, hget⟩ := List.getElem?_eq_some_iff.mp h
  obtain ⟨hr, hget'⟩ := List.getElem?_eq_some_iff.mp hfound
  exact (nodup_survivors.getElem_inj_iff).mp (hget.trans hget'.symm)

/-! ### Removals -/

/-- Removing the element at a place, if there is one. -/
theorem eraseIdx_eq_filter [DecidableEq α] {l : List α} (hl : l.Nodup) (i : ℕ) :
    l.eraseIdx i = l.filter fun a => l[i]? ≠ some a := by
  by_cases hi : i < l.length
  · rw [← hl.erase_getElem i hi, hl.erase_eq_filter, List.getElem?_eq_getElem hi]
    exact List.filter_congr fun a _ => by simp [bne, Bool.beq_eq_decide_eq, eq_comm]
  · rw [List.eraseIdx_eq_self.mpr (by omega), List.getElem?_eq_none (by omega)]
    simp

theorem eraseIdx_survivors (i : ℕ) :
    (survivors P n).eraseIdx i = survivors (fun p => P p ∧ (survivors P n)[i]? ≠ some p) n := by
  rw [eraseIdx_eq_filter nodup_survivors, survivors, List.filter_filter, survivors]
  exact List.filter_congr fun p _ => by simp [Bool.and_comm]

theorem range_eq_survivors (n : ℕ) : List.range n = survivors (fun _ => True) n := by
  simp [survivors]

theorem take_range (m n : ℕ) : (List.range n).take m = survivors (· < m) n := by
  rw [List.take_range]
  induction n with
  | zero => simp [survivors]
  | succ n ih =>
      rw [survivors, List.range_succ, List.filter_append]
      change _ = survivors (· < m) n ++ _
      rw [← ih]
      by_cases hn : n < m
      · rw [Nat.min_eq_right (by omega), Nat.min_eq_right (by omega), List.range_succ]
        simp [hn]
      · rw [Nat.min_eq_left (by omega), Nat.min_eq_left (by omega)]
        simp [hn]

end SqlxData.Survivors
