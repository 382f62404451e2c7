import Mathlib.Data.List.Infix
import Mathlib.Data.List.Nodup
import Mathlib.Data.List.Forall2

/-!
A list in parts, some of which are kept. The kept elements are a prefix of the
whole list, so that they are found by counting, exactly when no part that is
left out stands ahead of one that is kept.
-/

namespace SqlxData.KeptParts

variable {α : Type*}

def whole (parts : List (Bool × List α)) : List α := parts.flatMap Prod.snd

def kept (parts : List (Bool × List α)) : List α := (parts.filter Prod.fst).flatMap Prod.snd

/-- Leaving the first part out does not move the second one. -/
def InPlace (p r : Bool × List α) : Prop := p.1 = false → r.1 = true → p.2 = [] ∨ r.2 = []

instance [DecidableEq α] (p r : Bool × List α) : Decidable (InPlace p r) :=
  inferInstanceAs (Decidable (_ → _ → _))

@[simp] theorem whole_nil : whole ([] : List (Bool × List α)) = [] := rfl

@[simp] theorem whole_cons (p : Bool × List α) (ps : List (Bool × List α)) :
    whole (p :: ps) = p.2 ++ whole ps := rfl

@[simp] theorem kept_nil : kept ([] : List (Bool × List α)) = [] := rfl

@[simp] theorem kept_cons_true (xs : List α) (ps : List (Bool × List α)) :
    kept ((true, xs) :: ps) = xs ++ kept ps := rfl

@[simp] theorem kept_cons_false (xs : List α) (ps : List (Bool × List α)) :
    kept ((false, xs) :: ps) = kept ps := rfl

theorem kept_sublist (parts : List (Bool × List α)) : (kept parts).Sublist (whole parts) := by
  induction parts with
  | nil => exact List.Sublist.refl _
  | cons p ps ih =>
      obtain ⟨keeps, xs⟩ := p
      cases keeps with
      | false => exact ih.trans (List.sublist_append_right xs _)
      | true => exact ih.append_left xs

theorem kept_eq_nil_iff {parts : List (Bool × List α)} :
    kept parts = [] ↔ ∀ p ∈ parts, p.1 = true → p.2 = [] := by
  simp [kept, List.flatMap_eq_nil_iff]

/-- Nothing but empty parts is left out. -/
theorem kept_eq_whole_iff {parts : List (Bool × List α)} :
    kept parts = whole parts ↔ ∀ p ∈ parts, p.1 = false → p.2 = [] := by
  induction parts with
  | nil => simp
  | cons p ps ih =>
      obtain ⟨keeps, xs⟩ := p
      cases keeps with
      | true => simp [ih]
      | false =>
          simp only [kept_cons_false, whole_cons, List.forall_mem_cons, true_implies, ← ih]
          constructor
          · intro h
            have hlength := congrArg List.length h
            have hle := (kept_sublist ps).length_le
            rw [List.length_append] at hlength
            have hxs : xs = [] := List.length_eq_zero_iff.mp (by omega)
            exact ⟨hxs, by rw [h, hxs, List.nil_append]⟩
          · rintro ⟨rfl, h⟩
            rw [h, List.nil_append]

/-- A list that starts behind elements it shares nothing with is no prefix. -/
theorem prefix_append_iff_of_disjoint {xs ys zs : List α} (hne : xs ≠ [])
    (hdisjoint : xs.Disjoint ys) (hsub : zs ⊆ ys) : zs <+: xs ++ ys ↔ zs = [] := by
  refine ⟨fun h => ?_, fun h => h ▸ List.nil_prefix⟩
  obtain ⟨x, xs, rfl⟩ := List.exists_cons_of_ne_nil hne
  cases zs with
  | nil => rfl
  | cons z zs =>
      obtain ⟨rfl, -⟩ := List.cons_prefix_cons.mp h
      exact absurd (hsub List.mem_cons_self) (hdisjoint List.mem_cons_self)

theorem kept_prefix_iff {parts : List (Bool × List α)} (hnodup : (whole parts).Nodup) :
    kept parts <+: whole parts ↔ parts.Pairwise InPlace := by
  induction parts with
  | nil => simp
  | cons p ps ih =>
      obtain ⟨keeps, xs⟩ := p
      rw [whole_cons, List.nodup_append'] at hnodup
      obtain ⟨-, hps, hdisjoint⟩ := hnodup
      cases keeps with
      | true =>
          rw [kept_cons_true, whole_cons, List.prefix_append_right_inj, ih hps,
            List.pairwise_cons]
          simp [InPlace]
      | false =>
          rw [kept_cons_false, whole_cons, List.pairwise_cons]
          by_cases hxs : xs = []
          · subst hxs
            simp [InPlace, ih hps]
          · rw [prefix_append_iff_of_disjoint hxs hdisjoint (kept_sublist ps).subset,
              kept_eq_nil_iff]
            constructor
            · intro h
              exact ⟨fun r hr _ hkept => .inr (h r hr hkept),
                List.pairwise_of_forall_mem_list fun p _ r hr _ hkept => .inr (h r hr hkept)⟩
            · rintro ⟨h, -⟩ r hr hkept
              exact (h r hr rfl hkept).resolve_left hxs

/-- The first elements, some more than are kept, are the kept ones exactly if
none is left out, or if there are no more and the kept ones come first. -/
theorem kept_eq_take_iff {parts : List (Bool × List α)} (hnodup : (whole parts).Nodup) (more : ℕ) :
    kept parts = (whole parts).take ((kept parts).length + more) ↔
      (∀ p ∈ parts, p.1 = false → p.2 = []) ∨ more = 0 ∧ parts.Pairwise InPlace := by
  rw [← kept_prefix_iff hnodup, ← kept_eq_whole_iff]
  by_cases hall : kept parts = whole parts
  · simp [hall, List.take_of_length_le]
  · have hlt : (kept parts).length < (whole parts).length :=
      Nat.lt_of_le_of_ne (kept_sublist parts).length_le fun h =>
        hall ((kept_sublist parts).eq_of_length h)
    simp only [hall, false_or]
    constructor
    · intro h
      have hlength := congrArg List.length h
      rw [List.length_take] at hlength
      obtain rfl : more = 0 := by omega
      exact ⟨rfl, by rw [h]; exact List.take_prefix _ _⟩
    · rintro ⟨rfl, h⟩
      exact List.prefix_iff_eq_take.mp h

/-! ### Values found by counting -/

section Reading

variable {β : Type*} {values : List α} {slots : List β} {read : β → Option α}

theorem forall₂_read_iff {ks : List β} :
    List.Forall₂ (fun k v => read k = some v) ks values ↔ ks.map read = values.map some := by
  rw [← List.forall₂_eq_eq_eq, List.forall₂_map_left_iff, List.forall₂_map_right_iff]

/-- The first slots read the first values. -/
theorem forall₂_take (h : slots.map read = values.map some) (n : ℕ) :
    List.Forall₂ (fun k v => read k = some v) (slots.take n) (values.take n) := by
  rw [forall₂_read_iff, List.map_take, h, List.map_take]

/-- With values that differ, the slots are known by what they read. -/
theorem eq_take_of_forall₂ (h : slots.map read = values.map some) (hnodup : values.Nodup)
    {ks : List β} (hks : ks ⊆ slots) {n : ℕ}
    (hread : List.Forall₂ (fun k v => read k = some v) ks (values.take n)) :
    ks = slots.take n := by
  rw [forall₂_read_iff, List.map_take, ← h, ← List.map_take] at hread
  have hinj := List.inj_on_of_nodup_map (h ▸ hnodup.map fun a b => Option.some.inj)
  have hlength := congrArg List.length hread
  simp only [List.length_map] at hlength
  apply List.ext_getElem hlength
  intro i hi hi'
  have hsame := congrArg (·[i]?) hread
  simp only [List.getElem?_map, List.getElem?_eq_getElem hi, List.getElem?_eq_getElem hi',
    Option.map_some, Option.some.injEq] at hsame
  exact hinj (hks (List.getElem_mem hi)) (List.mem_of_mem_take (List.getElem_mem hi')) hsame

end Reading

end SqlxData.KeptParts
