import SqlxData.Dynamic.BoundText

/-!
What the renumbering of `$k` placeholders does to a text and its bind values,
said without its loop: by the markers of the text and the positions of the
values.
-/

namespace SqlxData.Dynamic

open NumberedText

variable {β : Type}

/-- The bind position of a number: its index among the original ones, or
behind these for a number above `max`. -/
inductive HasPosition (original : List ℕ) (max : ℕ) : ℕ → ℕ → Prop
  | original {k p : ℕ} : original[p]? = some k → HasPosition original max k p
  | generated {k : ℕ} : k ∉ original → max < k →
      HasPosition original max k (original.length + (k - max - 1))

theorem bindPosition_eq_some {original : List ℕ} (hnodup : original.Nodup) {max k p : ℕ} :
    bindPosition original max k = some p ↔ HasPosition original max k p := by
  constructor
  · intro h
    rw [bindPosition] at h
    split at h
    · rename_i hk
      obtain rfl := Option.some.inj h
      exact .original (List.getElem?_idxOf hk)
    · split at h
      · rename_i hk hmax
        obtain rfl := Option.some.inj h
        rw [← Nat.sub_sub]
        exact .generated hk hmax
      · simp at h
  · intro h
    cases h with
    | original hp =>
        obtain ⟨hlt, rfl⟩ := List.getElem?_eq_some_iff.mp hp
        rw [bindPosition, if_pos (List.getElem_mem hlt), hnodup.idxOf_getElem]
    | generated hk hmax => rw [bindPosition, if_neg hk, if_pos hmax, Nat.sub_sub]

theorem numberOrder_eq (sql : List Char) : numberOrder sql = (placeholderNumbers sql).eraseDups :=
  firstUse_nil_eq _

theorem mem_numberOrder {sql : List Char} {k : ℕ} :
    k ∈ numberOrder sql ↔ k ∈ placeholderNumbers sql := by
  simp [numberOrder, mem_firstUse]

theorem nodup_numberOrder (sql : List Char) : (numberOrder sql).Nodup :=
  nodup_firstUse _ List.nodup_nil

/-- When each number has its value, the values are picked one for one. -/
theorem picked_values {f : ℕ → Option β} {order : List ℕ} (h : ∀ k ∈ order, (f k).isSome) :
    (order.filterMap f).map some = order.map f := by
  rw [List.map_filterMap_some_eq_filter_map_isSome, List.filter_eq_self]
  simpa using h

theorem picked_length {f : ℕ → Option β} {order : List ℕ} (h : ∀ k ∈ order, (f k).isSome) :
    (order.filterMap f).length = order.length := by
  simpa using congrArg List.length (picked_values h)

theorem picked_at_rank {f : ℕ → Option β} {order : List ℕ} (h : ∀ k ∈ order, (f k).isSome)
    {k : ℕ} (hk : k ∈ order) : (order.filterMap f)[rank order k - 1]? = f k := by
  have hlt : order.idxOf k < order.length := List.idxOf_lt_length_of_mem hk
  have hat : ((order.filterMap f).map some)[order.idxOf k]? = some (f k) := by
    rw [picked_values h, List.getElem?_map, List.getElem?_idxOf hk]
    rfl
  obtain ⟨v, hv⟩ := Option.isSome_iff_exists.mp (h k hk)
  rw [List.getElem?_map, hv] at hat
  obtain ⟨w, hw, hwv⟩ := Option.map_eq_some_iff.mp hat
  rw [rank, Nat.add_sub_cancel, hw, hwv, hv]

section Renumber

variable {bindValues : List β} {original : List ℕ} {max : ℕ}

theorem pickedBind_eq (hnodup : original.Nodup) {k p : ℕ} (hp : HasPosition original max k p) :
    pickedBind bindValues original max k = bindValues[p]? := by
  rw [pickedBind, (bindPosition_eq_some hnodup).mpr hp]
  rfl

theorem renumber_of_picked {sql : List Char} (hne : placeholderNumbers sql ≠ [])
    (hpicked : ∀ k ∈ numberOrder sql, (pickedBind bindValues original max k).isSome) :
    renumberNumberedPlaceholdersWithBinds bindValues original max sql =
      (spell (relabel (rank (numberOrder sql)) (pieces usizeBound sql)),
        (numberOrder sql).filterMap (pickedBind bindValues original max)) := by
  have hfirst : (numberOrder sql).filterMap (pickedBind bindValues original max) ≠ [] := by
    obtain ⟨k, hk⟩ := List.exists_mem_of_ne_nil _ hne
    have hlength := picked_length hpicked
    have hpos := List.length_pos_of_mem (mem_numberOrder.mpr hk)
    rw [← List.length_pos_iff]
    omega
  have hnonempty : ¬((numberOrder sql).filterMap (pickedBind bindValues original max)).isEmpty := by
    rwa [List.isEmpty_iff]
  rw [renumberNumberedPlaceholdersWithBinds_eq]
  exact if_neg hnonempty

end Renumber

/-- The placeholders of a text are numbered from 1 in the order of their first
occurrence, and the bind values follow their numbers. -/
theorem renumber_by_first_use (bindValues : List β) {original : List ℕ}
    (hnodup : original.Nodup) (sql : List Char) :
    let max := maxPlaceholder original
    let numbers := placeholderNumbers sql
    let order := numbers.eraseDups
    let renumbered := renumberNumberedPlaceholdersWithBinds bindValues original max sql
    (numbers ≠ [] →
      (∀ k ∈ numbers, ∃ p < bindValues.length, HasPosition original max k p) →
        Set.BijOn (rank order) {k | k ∈ numbers} (Set.Icc 1 order.length) ∧
        (∀ i (hi : i < order.length), rank order order[i] = i + 1) ∧
        Relabels usizeBound (rank order) sql numbers renumbered.1 ∧
        renumbered.2.length = order.length ∧
        ∀ k ∈ numbers, ∀ p, HasPosition original max k p →
          renumbered.2[rank order k - 1]? = bindValues[p]?) ∧
      (numbers = [] → renumbered = (sql, bindValues)) := by
  intro max numbers order renumbered
  have horder : order = numberOrder sql := (numberOrder_eq sql).symm
  constructor
  · intro hne hpositions
    have hpicked : ∀ k ∈ numberOrder sql, (pickedBind bindValues original max k).isSome := by
      intro k hk
      obtain ⟨p, hlt, hp⟩ := hpositions k (mem_numberOrder.mp hk)
      rw [pickedBind_eq hnodup hp, List.getElem?_eq_getElem hlt]
      rfl
    have heq : renumbered = _ := renumber_of_picked hne hpicked
    have hmem : {k | k ∈ numbers} = {k | k ∈ numberOrder sql} :=
      Set.ext fun k => mem_numberOrder.symm
    rw [heq, horder, hmem]
    refine ⟨bijOn_rank (nodup_numberOrder sql), rank_getElem (nodup_numberOrder sql),
      relabels_pieces _ _ _, picked_length hpicked, fun k hk p hp => ?_⟩
    rw [picked_at_rank hpicked (mem_numberOrder.mpr hk), pickedBind_eq hnodup hp]
  · intro hnone
    have hnone : numberOrder sql = [] := by
      rw [← horder]
      exact congrArg List.eraseDups hnone
    change renumberNumberedPlaceholdersWithBinds bindValues original max sql = _
    rw [renumberNumberedPlaceholdersWithBinds_eq, hnone]
    rfl

/-- `$3` and `$5` were there before, `$6` is generated. -/
theorem renumber_by_first_use_three :
    let renumbered := renumberNumberedPlaceholdersWithBinds ["a", "b", "c"] [5, 3] 5
      "$6 + $3 + $5 + $6".toList
    renumbered = ("$1 + $2 + $3 + $1".toList, ["c", "b", "a"]) ∧
      Relabels usizeBound (rank [6, 3, 5]) "$6 + $3 + $5 + $6".toList [6, 3, 5, 6]
        renumbered.1 := by
  have hnumbers : placeholderNumbers "$6 + $3 + $5 + $6".toList = [6, 3, 5, 6] := by decide
  have hnodup : [5, 3].Nodup := by decide
  obtain ⟨-, -, hrelabels, -⟩ := (renumber_by_first_use ["a", "b", "c"] hnodup
    "$6 + $3 + $5 + $6".toList).1 (by rw [hnumbers]; decide) (by
      rw [hnumbers]
      simp only [List.mem_cons, List.not_mem_nil, or_false, forall_eq_or_imp, forall_eq]
      have hsix : HasPosition [5, 3] (maxPlaceholder [5, 3]) 6 2 :=
        .generated (by decide) (by decide)
      have hthree : HasPosition [5, 3] (maxPlaceholder [5, 3]) 3 1 := .original rfl
      have hfive : HasPosition [5, 3] (maxPlaceholder [5, 3]) 5 0 := .original rfl
      exact ⟨⟨2, by decide, hsix⟩, ⟨1, by decide, hthree⟩, ⟨0, by decide, hfive⟩,
        ⟨2, by decide, hsix⟩⟩)
  rw [hnumbers] at hrelabels
  exact ⟨by decide, hrelabels⟩

end SqlxData.Dynamic
