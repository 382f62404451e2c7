import SqlxData.Dynamic.BoundText

/-!
Where the values bound by a built text come from: the numbering moves bind
values around without looking at them, so it moves their origins alike. The
tokens of the built text are those of the printed statement, numbered anew.
-/

namespace SqlxData.Dynamic

open SqlxData.Sqlparser NumberedText

variable {n : ℕ} {baseSql : List Char}

/-! ### The tokens of the built text -/

def Tok.relabel (f : ℕ → ℕ) : Tok → Tok
  | .word s => .word (String.ofList (spell (NumberedText.relabel f (pieces usizeBound s.toList))))
  | .placeholder text origin =>
      .placeholder
        (String.ofList (spell (NumberedText.relabel f (pieces usizeBound text.toList)))) origin

theorem relabel_question (f : ℕ → ℕ) :
    String.ofList (spell (NumberedText.relabel f (pieces usizeBound "?".toList))) = "?" := rfl

theorem relabel_dollar (f : ℕ → ℕ) {k : ℕ} (hk : k < usizeBound) :
    String.ofList (spell (NumberedText.relabel f (pieces usizeBound ("$" ++ toString k).toList))) =
      "$" ++ toString (f k) := by
  have hmarker := @pieces_marker usizeBound k hk [] (by simp)
  rw [List.append_nil] at hmarker
  have hcut : pieces usizeBound ("$" ++ toString k).toList = [Piece.marker k] := by
    rw [String.toList_append]
    exact hmarker
  rw [hcut]
  apply String.ext
  simp [String.toList_append]

theorem text_relabel (f : ℕ → ℕ) (t : Tok) :
    (Tok.relabel f t).text = spell (NumberedText.relabel f (pieces usizeBound t.text)) := by
  cases t <;> simp [Tok.relabel]

theorem render_map_relabel (f : ℕ → ℕ) {ts : List Tok} (hts : Separated ts) :
    render (ts.map (Tok.relabel f)) =
      spell (NumberedText.relabel f (pieces usizeBound (render ts))) := by
  rw [pieces_render hts]
  clear hts
  induction ts with
  | nil => rfl
  | cons t ts ih =>
      rw [List.map_cons, render_cons, ih, text_relabel, List.flatMap_cons, relabel_append,
        spell_append]

def renumberedTokens {β : Type} (binds : List β) (numbers : List ℕ) (maxExisting : ℕ)
    (ts : List Tok) : List Tok :=
  if ((numberOrder (render ts)).filterMap (pickedBind binds numbers maxExisting)).isEmpty then ts
  else ts.map (Tok.relabel (rank (numberOrder (render ts))))

theorem render_renumberedTokens {β : Type} (binds : List β) (numbers : List ℕ) (maxExisting : ℕ)
    {ts : List Tok} (hts : Separated ts) :
    render (renumberedTokens binds numbers maxExisting ts) =
      (renumberNumberedPlaceholdersWithBinds binds numbers maxExisting (render ts)).1 := by
  rw [renumberNumberedPlaceholdersWithBinds_eq, renumberedTokens]
  simp only
  split
  · rfl
  · exact render_map_relabel _ hts

/-! ### Values and their origins -/

theorem pickedBind_no_numbers {β : Type} (binds : List β) (k : ℕ) :
    pickedBind binds [] 0 k = if k = 0 then none else binds[k - 1]? := by
  rw [pickedBind, bindPosition]
  by_cases hk : k = 0
  · simp [hk]
  · have hpos : 0 < k := by omega
    simp [hk, hpos]

section Origins

variable {α β : Type}

theorem pickedBind_map (f : α → β) (binds : List α) (numbers : List ℕ) (maxExisting k : ℕ) :
    pickedBind (binds.map f) numbers maxExisting k =
      (pickedBind binds numbers maxExisting k).map f := by
  rw [pickedBind, pickedBind]
  cases bindPosition numbers maxExisting k <;> simp

theorem filterMap_pickedBind_map (f : α → β) (binds : List α) (numbers : List ℕ)
    (maxExisting : ℕ) (order : List ℕ) :
    order.filterMap (pickedBind (binds.map f) numbers maxExisting) =
      (order.filterMap (pickedBind binds numbers maxExisting)).map f := by
  rw [List.map_filterMap]
  exact congrArg (List.filterMap · _) (funext (pickedBind_map f binds numbers maxExisting))

/-- The bind values are only moved around. -/
theorem renumbered_binds_map (f : α → β) (binds : List α) (numbers : List ℕ) (maxExisting : ℕ)
    (sql : List Char) :
    (renumberNumberedPlaceholdersWithBinds (binds.map f) numbers maxExisting sql).2 =
      (renumberNumberedPlaceholdersWithBinds binds numbers maxExisting sql).2.map f := by
  simp only [renumberNumberedPlaceholdersWithBinds_eq, filterMap_pickedBind_map,
    List.isEmpty_map]
  split <;> rfl

theorem renumberedTokens_map (f : α → β) (binds : List α) (numbers : List ℕ) (maxExisting : ℕ)
    (ts : List Tok) :
    renumberedTokens (binds.map f) numbers maxExisting ts =
      renumberedTokens binds numbers maxExisting ts := by
  rw [renumberedTokens, renumberedTokens, filterMap_pickedBind_map, List.isEmpty_map]

theorem mem_of_mem_renumbered_binds {binds : List α} {numbers : List ℕ} {maxExisting : ℕ}
    {sql : List Char} {b : α}
    (h : b ∈ (renumberNumberedPlaceholdersWithBinds binds numbers maxExisting sql).2) :
    b ∈ binds := by
  rw [renumberNumberedPlaceholdersWithBinds_eq] at h
  simp only at h
  split at h
  · exact h
  · obtain ⟨k, -, hk⟩ := List.mem_filterMap.mp h
    obtain ⟨i, -, hi⟩ := Option.bind_eq_some_iff.mp hk
    exact List.mem_of_getElem? hi

theorem exists_of_forall₂ {α β : Type} {R : α → β → Prop} {as : List α} {bs : List β}
    (h : List.Forall₂ R as bs) {a : α} (ha : a ∈ as) : ∃ b, R a b := by
  induction h with
  | nil => simp at ha
  | @cons a' b as bs hab hrest ih =>
      rcases List.mem_cons.mp ha with rfl | ha
      · exact ⟨b, hab⟩
      · exact ih ha

theorem eq_of_map_eq {f : α → β} {s : Set α} (hf : Set.InjOn f s) {l l' : List α}
    (hl : ∀ a ∈ l, a ∈ s) (hl' : ∀ a ∈ l', a ∈ s) (h : l.map f = l'.map f) : l = l' := by
  induction l generalizing l' with
  | nil => simpa [eq_comm] using h
  | cons a l ih =>
      cases l' with
      | nil => simp at h
      | cons b l' =>
          obtain ⟨hab, hrest⟩ := List.cons.inj h
          rw [hf (hl a (by simp)) (hl' b (by simp)) hab,
            ih (fun a ha => hl a (by simp [ha])) (fun b hb => hl' b (by simp [hb])) hrest]

end Origins

/-- The `?` that reads the `i`-th argument. -/
def questionMark (i : ℕ) : Mark := ⟨"?", .argument i⟩

/-- Where the bind values come from before they are numbered anew. -/
def bindOrigins (n : ℕ) (generated : List FilterValue) : List Origin :=
  (List.range n).map .argument ++ generated.map .pushed

theorem origin_questionMark_mem {i : ℕ} (hi : i < n) (generated : List FilterValue) :
    (questionMark i).origin ∈ bindOrigins n generated :=
  List.mem_append_left _ (List.mem_map_of_mem (List.mem_range.mpr hi))

theorem origin_issued_mem {cfg : Config} {start : UInt8} {generated : List FilterValue} {m : Mark}
    (hm : m ∈ issued cfg start generated) : m.origin ∈ bindOrigins n generated := by
  refine List.mem_append_right _ ?_
  rw [← @map_origin_issued cfg]
  exact List.mem_map_of_mem hm

section QuestionMarks

variable {cfg : Config} {D : Display} {params : Params} {q : Query}

theorem exists_questionMark_of_mem (hbase : marks (D.query q) = (List.range n).map questionMark)
    {m : Mark} (hm : m ∈ marks (D.query q)) : ∃ i < n, m = questionMark i := by
  rw [hbase] at hm
  obtain ⟨i, hi, rfl⟩ := List.mem_map.mp hm
  exact ⟨i, List.mem_range.mp hi, rfl⟩

theorem origin_base_mem (hbase : marks (D.query q) = (List.range n).map questionMark)
    (generated : List FilterValue) {m : Mark} (hm : m ∈ marks (D.query q)) :
    m.origin ∈ bindOrigins n generated := by
  obtain ⟨i, hi, rfl⟩ := exists_questionMark_of_mem hbase hm
  exact origin_questionMark_mem hi generated

/-- Every printed placeholder reads an argument or a generated value. -/
theorem Printed.origin_mem (hbase : marks (D.query q) = (List.range n).map questionMark)
    {start : UInt8} {generated : List FilterValue} {printed : List Mark}
    (hprinted : Printed D cfg params q (issued cfg start generated) printed) :
    ∀ m ∈ printed, m.origin ∈ bindOrigins n generated := by
  intro m hm
  rcases (hprinted.mem_iff D m).mp hm with hkept | hissued
  · exact origin_base_mem hbase generated (keptMarks_subset D params q hkept)
  · exact origin_issued_mem hissued

end QuestionMarks

/-- The first `k` arguments and the generated values behind them. -/
theorem map_meaning_bindOrigins {initialBinds generated : List FilterValue} {k : ℕ}
    (hk : k ≤ initialBinds.length) :
    (bindOrigins k generated).map (meaning initialBinds) =
      (initialBinds.take k ++ generated).map some := by
  rw [bindOrigins, List.map_append, List.map_append, List.map_map, List.map_map]
  congr 1
  apply List.ext_getElem?
  intro i
  by_cases hi : i < k
  · have hlt : i < initialBinds.length := by omega
    simp [hi, hlt, meaning]
  · simp [hi]

theorem bindOrigins_subset {k n : ℕ} (hkn : k ≤ n) (generated : List FilterValue) :
    bindOrigins k generated ⊆ bindOrigins n generated := by
  intro o ho
  rw [bindOrigins, List.mem_append] at ho
  rw [bindOrigins, List.mem_append]
  refine ho.imp_left fun ho => ?_
  obtain ⟨i, hi, rfl⟩ := List.mem_map.mp ho
  have hi := List.mem_range.mp hi
  exact List.mem_map_of_mem (List.mem_range.mpr (by omega))

/-- There are arguments that tell their places from each other and from the
generated values. -/
theorem exists_telling (n : ℕ) (generated : List FilterValue) :
    ∃ initialBinds : List FilterValue, initialBinds.length = n ∧
      Set.InjOn (meaning initialBinds) {o | o ∈ bindOrigins n generated} := by
  have hvalues : ∃ vs : List FilterValue, vs.length = n ∧ vs.Nodup ∧ ∀ v ∈ vs, v ∉ generated := by
    induction n with
    | zero => exact ⟨[], rfl, List.nodup_nil, by simp⟩
    | succ n ih =>
        obtain ⟨vs, hlength, hnodup, hvs⟩ := ih
        obtain ⟨v, hv⟩ := exists_fresh (vs ++ generated)
        rw [List.mem_append, not_or] at hv
        refine ⟨v :: vs, by simp [hlength], List.nodup_cons.mpr ⟨hv.1, hnodup⟩, ?_⟩
        intro w hw
        rcases List.mem_cons.mp hw with rfl | hw
        · exact hv.2
        · exact hvs w hw
  obtain ⟨vs, rfl, hnodup, hvs⟩ := hvalues
  refine ⟨vs, rfl, ?_⟩
  have hargument : ∀ i < vs.length, ∃ v ∈ vs, meaning vs (.argument i) = some v := fun i hi =>
    ⟨vs[i], List.getElem_mem hi, by simp [meaning, hi]⟩
  intro a ha b hb hab
  simp only [bindOrigins, Set.mem_ofPred_eq, List.mem_append, List.mem_map, List.mem_range]
    at ha hb
  rcases ha with ⟨i, hi, rfl⟩ | ⟨v, hv, rfl⟩ <;> rcases hb with ⟨j, hj, rfl⟩ | ⟨w, hw, rfl⟩
  · simp only [meaning, List.getElem?_eq_getElem hi, List.getElem?_eq_getElem hj,
      Option.some.injEq] at hab
    rw [(List.Nodup.getElem_inj_iff hnodup).mp hab]
  · obtain ⟨v, hv, hmeaning⟩ := hargument i hi
    rw [hmeaning] at hab
    exact (hvs v hv (Option.some.inj hab ▸ hw)).elim
  · obtain ⟨w, hw, hmeaning⟩ := hargument j hj
    rw [hmeaning] at hab
    exact (hvs w hw (Option.some.inj hab ▸ hv)).elim
  · rw [Option.some.inj hab]

/-- Where the bind values of the built text come from. -/
def renumberedOrigins (n : ℕ) (generated : List FilterValue) (baseSql printed : List Char) :
    List Origin :=
  (renumberNumberedPlaceholdersWithBinds (bindOrigins n generated)
    (collectNumberedPlaceholders baseSql)
    (maxPlaceholder (collectNumberedPlaceholders baseSql)) printed).2

/-- The bound values have the meanings of their origins. -/
theorem bindValues_numberedAnew {initialBinds : List FilterValue} {k : ℕ}
    (hk : k ≤ initialBinds.length) (generated : List FilterValue) (printed : List Char) :
    (numberedAnew baseSql printed (initialBinds.take k ++ generated)).bindValues.map some =
      (renumberedOrigins k generated baseSql printed).map (meaning initialBinds) := by
  rw [renumberedOrigins, ← renumbered_binds_map, map_meaning_bindOrigins hk,
    renumbered_binds_map]
  rfl

theorem renumberedOrigins_of_no_numbers {generated : List FilterValue} {printed : List Char}
    (h : placeholderNumbers printed = []) :
    renumberedOrigins n generated baseSql printed = bindOrigins n generated := by
  rw [renumberedOrigins, renumberNumberedPlaceholdersWithBinds_eq, numberOrder, h]
  rfl

end SqlxData.Dynamic
