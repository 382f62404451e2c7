import Mathlib.Data.List.Dedup
import Mathlib.Data.List.Nodup
import Mathlib.Data.List.Pairwise

/-!
Counting without repetitions: the distinct elements of a list, the distinct
values a partial function has on it, and the first element of each key.
-/

namespace DistinctCount

variable {α β : Type} [DecidableEq α] [DecidableEq β]

/-- Lists with the same elements have the same number of distinct ones. -/
theorem length_dedup_congr {xs ys : List α} (h : ∀ a, a ∈ xs ↔ a ∈ ys) :
    xs.dedup.length = ys.dedup.length := by
  apply List.Perm.length_eq
  apply (List.perm_ext_iff_of_nodup xs.nodup_dedup ys.nodup_dedup).mpr
  intro a
  rw [List.mem_dedup, List.mem_dedup, h]

theorem length_dedup_eq_length_iff {xs : List α} : xs.dedup.length = xs.length ↔ xs.Nodup := by
  constructor
  · intro h
    rw [← xs.dedup_sublist.eq_of_length h]
    exact xs.nodup_dedup
  · intro h
    rw [h.dedup]

omit [DecidableEq α] [DecidableEq β] in
/-- On a list without repetitions, the values are without repetitions when
the function is injective where it is defined. -/
theorem nodup_filterMap_iff (f : α → Option β) {xs : List α} (hxs : xs.Nodup)
    (hdefined : ∀ x ∈ xs, (f x).isSome) :
    (xs.filterMap f).Nodup ↔ ∀ x ∈ xs, ∀ y ∈ xs, f x = f y → x = y := by
  rw [List.Nodup, List.pairwise_filterMap]
  constructor
  · intro h x hx y hy hxy
    by_contra hne
    obtain ⟨b, hb⟩ := Option.isSome_iff_exists.mp (hdefined x hx)
    have : Std.Symm fun x y : α => ∀ b, f x = some b → ∀ b', f y = some b' → b ≠ b' :=
      ⟨fun x y h b hb b' hb' => (h b' hb' b hb).symm⟩
    exact h.forall hx hy hne b hb b (hxy ▸ hb) rfl
  · intro h
    apply hxs.pairwise_of_forall_ne
    intro x hx y hy hne b hb b' hb' heq
    exact hne (h x hx y hy (by rw [hb, hb', heq]))

/-- A partial function takes as many distinct values as there are distinct
elements exactly when it is defined on all of them and injective. -/
theorem length_dedup_filterMap_eq_iff (f : α → Option β) (xs : List α) :
    (xs.filterMap f).dedup.length = xs.dedup.length ↔
      (∀ x ∈ xs, (f x).isSome) ∧ ∀ x ∈ xs, ∀ y ∈ xs, f x = f y → x = y := by
  have hvalues : (xs.filterMap f).dedup.length = (xs.dedup.filterMap f).dedup.length :=
    length_dedup_congr fun b => by simp only [List.mem_filterMap, List.mem_dedup]
  have hfew : (xs.dedup.filterMap f).dedup.length ≤ (xs.dedup.filterMap f).length :=
    (List.dedup_sublist _).length_le
  have hless : (xs.dedup.filterMap f).length ≤ xs.dedup.length := List.length_filterMap_le f _
  have hall : (xs.dedup.filterMap f).length = xs.dedup.length ↔ ∀ x ∈ xs, (f x).isSome := by
    simp only [List.filterMap_length_eq_length, List.mem_dedup]
  have hinjective (hdefined : ∀ x ∈ xs, (f x).isSome) :
      (xs.dedup.filterMap f).Nodup ↔ ∀ x ∈ xs, ∀ y ∈ xs, f x = f y → x = y := by
    rw [nodup_filterMap_iff f xs.nodup_dedup fun x hx => hdefined x (List.mem_dedup.mp hx)]
    simp only [List.mem_dedup]
  rw [hvalues]
  constructor
  · intro h
    have hdefined := hall.mp (by omega)
    exact ⟨hdefined, (hinjective hdefined).mp (length_dedup_eq_length_iff.mp (by omega))⟩
  · rintro ⟨hdefined, hinj⟩
    rw [length_dedup_eq_length_iff.mpr ((hinjective hdefined).mpr hinj)]
    exact hall.mpr hdefined

omit [DecidableEq α] in
/-- The same for values that the images under `g` determine: there are as
many distinct values as images exactly when no value is missing and equal
values belong to equal images. -/
theorem length_dedup_values_eq_images_iff {γ : Type} [DecidableEq γ] (f : α → Option β) (g : α → γ)
    (xs : List α) (hfg : ∀ x ∈ xs, ∀ y ∈ xs, g x = g y → f x = f y) :
    (xs.filterMap f).dedup.length = (xs.map g).dedup.length ↔
      (∀ x ∈ xs, (f x).isSome) ∧ ∀ x ∈ xs, ∀ y ∈ xs, f x = f y → g x = g y := by
  classical
  -- The value of an image is that of any element it is the image of.
  let k : γ → Option β := fun c => if h : ∃ x ∈ xs, g x = c then f h.choose else none
  have hk : ∀ x ∈ xs, k (g x) = f x := by
    intro x hx
    have hex : ∃ y ∈ xs, g y = g x := ⟨x, hx, rfl⟩
    obtain ⟨hmem, heq⟩ := hex.choose_spec
    simpa only [k, dif_pos hex] using hfg _ hmem x hx heq
  have hvalues : xs.filterMap f = (xs.map g).filterMap k := by
    rw [List.filterMap_map]
    exact List.filterMap_congr fun x hx => (hk x hx).symm
  rw [hvalues, length_dedup_filterMap_eq_iff]
  simp only [List.forall_mem_map]
  constructor
  · rintro ⟨hsome, hinj⟩
    refine ⟨fun x hx => hk x hx ▸ hsome x hx, fun x hx y hy hxy => hinj x hx y hy ?_⟩
    rw [hk x hx, hk y hy, hxy]
  · rintro ⟨hsome, hinj⟩
    refine ⟨fun x hx => (hk x hx).symm ▸ hsome x hx, fun x hx y hy hxy => hinj x hx y hy ?_⟩
    rw [← hk x hx, ← hk y hy, hxy]

omit [DecidableEq α] in
/-- The first element of each key, in the order of the list. -/
def firstOfEach (key : α → β) (xs : List α) : List α :=
  (xs.reverse.pwFilter fun a b => key a ≠ key b).reverse

omit [DecidableEq α] in
theorem length_firstOfEach (key : α → β) (xs : List α) :
    (firstOfEach key xs).length = (xs.map key).dedup.length := by
  calc
    (firstOfEach key xs).length = (xs.reverse.pwFilter fun a b => key a ≠ key b).length := by
      rw [firstOfEach, List.length_reverse]
    _ = ((xs.reverse.map key).pwFilter (· ≠ ·)).length := by
      rw [List.pwFilter_map, List.length_map]
    _ = (xs.map key).dedup.length := by
      apply length_dedup_congr
      simp

omit [DecidableEq α] in
/-- Every key is there once. -/
theorem map_firstOfEach_perm (key : α → β) (xs : List α) :
    ((firstOfEach key xs).map key).Perm (xs.map key).dedup := by
  have hkeys : (firstOfEach key xs).map key =
      ((xs.reverse.map key).pwFilter (· ≠ ·)).reverse := by
    rw [firstOfEach, List.map_reverse, List.pwFilter_map]
  rw [hkeys]
  apply (List.perm_ext_iff_of_nodup (List.nodup_reverse.mpr (List.pairwise_pwFilter _))
    (List.nodup_dedup _)).mpr
  intro b
  rw [List.mem_reverse, List.mem_dedup]
  exact (List.mem_dedup (l := xs.reverse.map key)).trans (by simp)

omit [DecidableEq α] in
/-- The first elements of the keys of one element are that element. -/
@[simp] theorem firstOfEach_singleton (key : α → β) (a : α) : firstOfEach key [a] = [a] := rfl

end DistinctCount
