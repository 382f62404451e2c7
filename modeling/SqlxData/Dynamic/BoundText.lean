import SqlxData.Dynamic.Printed
import Mathlib.Data.List.Perm.Subperm
import Mathlib.Data.Fintype.EquivFin

/-!
The numbers in a printed statement and the values they are bound to.
-/

namespace SqlxData.Dynamic

open SqlxData.Sqlparser NumberedText

/-! ### Numbers of a printed statement -/

theorem length_numbers_pieces_le (cs : List Char) :
    (placeholderNumbers cs).length ≤ cs.length := by
  induction hn : cs.length using Nat.strongRecOn generalizing cs with
  | _ n ih =>
      cases cs with
      | nil => simp [placeholderNumbers]
      | cons c rest =>
          have hlt : rest.length < n := by simp [← hn]
          rw [placeholderNumbers, pieces_cons]
          cases markerAt usizeBound (c :: rest) with
          | none => exact (ih _ hlt rest rfl).trans hlt.le
          | some m =>
              have hdrop : (rest.drop m.2).length ≤ rest.length := by simp
              have hrest := ih _ (by omega) (rest.drop m.2) rfl
              rw [placeholderNumbers] at hrest
              rw [numbers_marker, List.length_cons]
              omega

/-- No marker runs over the end of a token. -/
theorem pieces_render {ts : List Tok} (hts : Separated ts) :
    pieces usizeBound (render ts) = ts.flatMap fun t => pieces usizeBound t.text := by
  induction ts with
  | nil => rfl
  | cons t ts ih =>
      rw [render_cons, pieces_append_of_apart hts.1, List.flatMap_cons, ih hts.2]

/-- The numbers of a text are those of its tokens. -/
theorem placeholderNumbers_render {ts : List Tok} (hts : Separated ts) :
    placeholderNumbers (render ts) = ts.flatMap fun t => placeholderNumbers t.text := by
  rw [placeholderNumbers, pieces_render hts, numbers, List.filterMap_flatMap]
  rfl

/-- The token is a placeholder or a word without a number. -/
def Plain : Tok → Prop
  | .word s => placeholderNumbers s.toList = []
  | .placeholder _ _ => True

instance : DecidablePred Plain
  | .word s => inferInstanceAs (Decidable (placeholderNumbers s.toList = []))
  | .placeholder _ _ => isTrue trivial

/-- The words of a printed statement hold no number of their own. -/
def PlainWords (ts : List Tok) : Prop := ∀ t ∈ ts, Plain t

instance (ts : List Tok) : Decidable (PlainWords ts) :=
  inferInstanceAs (Decidable (∀ t ∈ ts, Plain t))

theorem plainWords_cons {t : Tok} {ts : List Tok} :
    PlainWords (t :: ts) ↔ Plain t ∧ PlainWords ts := by
  simp [PlainWords]

theorem placeholderNumbers_of_plainWords {ts : List Tok} (hts : Separated ts)
    (hplain : PlainWords ts) :
    placeholderNumbers (render ts) =
      (marks ts).flatMap fun m => placeholderNumbers m.text.toList := by
  rw [placeholderNumbers_render hts]
  clear hts
  induction ts with
  | nil => rfl
  | cons t ts ih =>
      obtain ⟨ht, hts⟩ := plainWords_cons.mp hplain
      cases t with
      | word s => simpa [show placeholderNumbers s.toList = [] from ht] using ih hts
      | placeholder text origin => simp [ih hts]

/-- The number written in a placeholder. -/
def markNumber (m : Mark) : ℕ := (placeholderNumbers m.text.toList).headD 0

theorem placeholderNumbers_eq_map {ts : List Tok} (hts : Separated ts) (hplain : PlainWords ts)
    (hnumber : ∀ m ∈ marks ts, placeholderNumbers m.text.toList = [markNumber m]) :
    placeholderNumbers (render ts) = (marks ts).map markNumber := by
  rw [placeholderNumbers_of_plainWords hts hplain, List.map_eq_flatMap]
  exact List.flatMap_congr hnumber

/-- With as many numbers as placeholders, all of them single numbers, no word
has any. -/
theorem plainWords_of_length {ts : List Tok} (hts : Separated ts)
    (hsingle : ∀ m ∈ marks ts, (placeholderNumbers m.text.toList).length = 1)
    (hlength : (placeholderNumbers (render ts)).length = (marks ts).length) : PlainWords ts := by
  have hle : ∀ us : List Tok, (∀ m ∈ marks us, (placeholderNumbers m.text.toList).length = 1) →
      (marks us).length ≤ (us.flatMap fun t => placeholderNumbers t.text).length := by
    intro us hus
    induction us with
    | nil => simp
    | cons t us ih =>
        cases t with
        | word s =>
            have := ih hus
            simp only [marks_word, List.flatMap_cons, List.length_append]
            omega
        | placeholder text origin =>
            have hone := hus ⟨text, origin⟩ (by simp)
            have := ih fun m hm => hus m (by simp [hm])
            simp only [marks_placeholder, List.length_cons, List.flatMap_cons,
              List.length_append, Tok.text_placeholder]
            simp only at hone
            omega
  rw [placeholderNumbers_render hts] at hlength
  clear hts
  induction ts with
  | nil => simp [PlainWords]
  | cons t ts ih =>
      cases t with
      | word s =>
          have hrest := hle ts hsingle
          simp only [marks_word, List.flatMap_cons, List.length_append, Tok.text_word]
            at hlength
          have hs : placeholderNumbers s.toList = [] := List.length_eq_zero_iff.mp (by omega)
          exact plainWords_cons.mpr ⟨hs, ih hsingle (by omega)⟩
      | placeholder text origin =>
          have hone := hsingle ⟨text, origin⟩ (by simp)
          simp only [marks_placeholder, List.length_cons, List.flatMap_cons, List.length_append,
            Tok.text_placeholder] at hlength
          simp only at hone
          exact plainWords_cons.mpr
            ⟨trivial, ih (fun m hm => hsingle m (by simp [hm])) (by omega)⟩

/-- `$k` is cut into one marker. -/
theorem placeholderNumbers_dollar {k : ℕ} (hk : k < usizeBound) :
    placeholderNumbers ("$" ++ toString k).toList = [k] := by
  have h := @pieces_marker usizeBound k hk [] (by simp)
  rw [List.append_nil] at h
  rw [placeholderNumbers, String.toList_append]
  change numbers (pieces usizeBound ('$' :: (toString k).toList)) = [k]
  rw [h]
  rfl

theorem placeholderNumbers_question : placeholderNumbers "?".toList = [] := by decide

/-! ### Picked values -/

theorem getElem?_filterMap_of_isSome {α β : Type} {f : α → Option β} {l : List α}
    (h : ∀ a ∈ l, (f a).isSome) (i : ℕ) : (l.filterMap f)[i]? = l[i]?.bind f := by
  induction l generalizing i with
  | nil => simp
  | cons a l ih =>
      obtain ⟨b, hb⟩ := Option.isSome_iff_exists.mp (h a (by simp))
      rw [List.filterMap_cons_some hb]
      cases i with
      | zero => simp [hb]
      | succ i => simpa using ih (fun a ha => h a (by simp [ha])) i

theorem length_filterMap_of_isSome {α β : Type} {f : α → Option β} {l : List α}
    (h : ∀ a ∈ l, (f a).isSome) : (l.filterMap f).length = l.length := by
  induction l with
  | nil => rfl
  | cons a l ih =>
      obtain ⟨b, hb⟩ := Option.isSome_iff_exists.mp (h a (by simp))
      rw [List.filterMap_cons_some hb, List.length_cons, List.length_cons,
        ih fun a ha => h a (by simp [ha])]

theorem forall₂_congr_of_mem {α β : Type} {R S : α → β → Prop} {as : List α} {bs : List β}
    (h : ∀ a ∈ as, ∀ b, R a b ↔ S a b) : List.Forall₂ R as bs ↔ List.Forall₂ S as bs := by
  induction as generalizing bs with
  | nil => simp
  | cons a as ih =>
      cases bs with
      | nil => simp
      | cons b bs =>
          simp only [List.forall₂_cons]
          rw [h a (by simp) b, ih fun a ha => h a (by simp [ha])]

section Renumbered

variable (binds : List FilterValue) (numbers : List ℕ) (maxExisting : ℕ)

theorem rank_numberOrder_lt {sql : List Char} (hsize : sql.length < usizeBound) :
    ∀ k ∈ placeholderNumbers sql, rank (numberOrder sql) k < usizeBound := by
  intro k hk
  have hmem : k ∈ numberOrder sql := mem_firstUse.mpr (Or.inr hk)
  have hnodup : (numberOrder sql).Nodup := nodup_firstUse _ List.nodup_nil
  have hsub : numberOrder sql ⊆ placeholderNumbers sql := fun j hj => by
    simpa using mem_firstUse.mp hj
  have hle := (List.subperm_of_subset hnodup hsub).length_le
  have hrank := rank_le_length hmem
  have hlen := length_numbers_pieces_le sql
  omega

/-- Numbering anew keeps the number of markers in the text. -/
theorem length_placeholderNumbers_renumbered {sql : List Char}
    (hsize : sql.length < usizeBound) :
    (placeholderNumbers
      (renumberNumberedPlaceholdersWithBinds binds numbers maxExisting sql).1).length =
        (placeholderNumbers sql).length := by
  rw [renumberNumberedPlaceholdersWithBinds_eq]
  simp only
  split
  · rfl
  · rw [placeholderNumbers, numbers_pieces_relabel sql (rank_numberOrder_lt hsize),
      List.length_map]
    rfl

/-- When every number of the text picks a value, the marker of a number is
bound to that value. -/
theorem forall₂_renumbered_iff {sql : List Char} (hsize : sql.length < usizeBound)
    (hpick : ∀ k ∈ placeholderNumbers sql, (pickedBind binds numbers maxExisting k).isSome)
    (P : Option FilterValue → Mark → Prop) (ms : List Mark) :
    let renumbered := renumberNumberedPlaceholdersWithBinds binds numbers maxExisting sql
    List.Forall₂ (fun i m => (1 ≤ i ∧ i ≤ renumbered.2.length) ∧ P renumbered.2[i - 1]? m)
        (placeholderNumbers renumbered.1) ms ↔
      List.Forall₂ (fun k m => P (pickedBind binds numbers maxExisting k) m)
        (placeholderNumbers sql) ms := by
  have hmem : ∀ k, k ∈ numberOrder sql ↔ k ∈ placeholderNumbers sql := fun k => by
    simp [numberOrder, mem_firstUse]
  have hall : ∀ k ∈ numberOrder sql, (pickedBind binds numbers maxExisting k).isSome :=
    fun k hk => hpick k ((hmem k).mp hk)
  have hlength := length_filterMap_of_isSome hall
  rw [renumberNumberedPlaceholdersWithBinds_eq]
  simp only
  split
  · rename_i hempty
    have horder : numberOrder sql = [] := by
      rw [List.isEmpty_iff.mp hempty, List.length_nil] at hlength
      exact List.length_eq_zero_iff.mp hlength.symm
    have hnil : placeholderNumbers sql = [] := by
      rw [List.eq_nil_iff_forall_not_mem]
      intro k hk
      simpa [horder] using (hmem k).mpr hk
    simp [hnil]
  · rw [placeholderNumbers, numbers_pieces_relabel sql (rank_numberOrder_lt hsize),
      List.forall₂_map_left_iff]
    refine forall₂_congr_of_mem fun k hk m => ?_
    have hk := (hmem k).mpr hk
    have hrank := rank_le_length hk
    have hget : (numberOrder sql)[rank (numberOrder sql) k - 1]? = some k :=
      List.getElem?_idxOf hk
    rw [getElem?_filterMap_of_isSome hall, hget, hlength]
    simp [rank] at hrank ⊢
    omega

end Renumbered

/-! ### Meaning of a placeholder -/

/-- The value a placeholder stands for, given the arguments of the method. -/
def meaning (initialBinds : List FilterValue) : Origin → Option FilterValue
  | .argument index => initialBinds[index]?
  | .pushed value => some value

/-- There are more values than any list has. -/
theorem exists_fresh (vs : List FilterValue) : ∃ v, v ∉ vs := by
  have hinj : Function.Injective fun n : ℕ => FilterValue.array (List.replicate n .null) := by
    intro m n h
    simpa using congrArg List.length (FilterValue.array.inj h)
  have : Infinite FilterValue := Infinite.of_injective _ hinj
  obtain ⟨v, hv⟩ := Infinite.exists_notMem_finset vs.toFinset
  exact ⟨v, by simpa using hv⟩

/-! ### The base text -/

theorem le_foldl_max (ks : List ℕ) (a : ℕ) : a ≤ ks.foldl max a ∧ ∀ k ∈ ks, k ≤ ks.foldl max a := by
  induction ks generalizing a with
  | nil => simp
  | cons j ks ih =>
      obtain ⟨hstart, hks⟩ := ih (max a j)
      rw [List.foldl_cons]
      refine ⟨by omega, fun k hk => ?_⟩
      rcases List.mem_cons.mp hk with rfl | hk
      · omega
      · exact hks k hk

theorem le_maxPlaceholder {ks : List ℕ} {k : ℕ} (hk : k ∈ ks) : k ≤ maxPlaceholder ks :=
  (le_foldl_max ks 0).2 k hk

theorem maxPlaceholder_le {ks : List ℕ} {n : ℕ} (h : ∀ k ∈ ks, k ≤ n) : maxPlaceholder ks ≤ n := by
  have hfold : ∀ a ≤ n, ks.foldl max a ≤ n := by
    induction ks with
    | nil => simp
    | cons j ks ih =>
        intro a ha
        have hj : j ≤ n := h j (by simp)
        exact ih (fun k hk => h k (by simp [hk])) (max a j) (by omega)
  exact hfold 0 (by omega)

theorem nodup_collect (sql : List Char) : (collectNumberedPlaceholders sql).Nodup := by
  rw [collectNumberedPlaceholders_eq]
  exact nodup_firstUse _ List.nodup_nil

theorem mem_collect {sql : List Char} {k : ℕ} :
    k ∈ collectNumberedPlaceholders sql ↔ k ∈ placeholderNumbers sql := by
  rw [collectNumberedPlaceholders_eq, mem_firstUse]
  simp

/-- Distinct numbers from 1 to `n` are at most `n` many. -/
theorem length_le_of_nodup {ks : List ℕ} (hks : ks.Nodup) {n : ℕ} (h : ∀ k ∈ ks, 1 ≤ k ∧ k ≤ n) :
    ks.length ≤ n := by
  have hsub : ks ⊆ List.range' 1 n := by
    intro k hk
    have := h k hk
    exact List.mem_range'_1.mpr (by omega)
  simpa using (List.subperm_of_subset hks hsub).length_le

/-! ### The placeholders kept from the base statement -/

variable {cfg : Config} (D : Display)

/-- The placeholders of the base statement that are printed again. -/
def keptMarks (params : Params) (q : Query) : List Mark :=
  withMarks D q.with ++ marks (D.setExpr q.body) ++ tailMarks D params q

theorem keptMarks_subset (params : Params) (q : Query) :
    keptMarks D params q ⊆ marks (D.query q) := by
  intro m
  rw [keptMarks, tailMarks, marks_query]
  cases replacesOrderBy params <;> cases replacesLimit params <;>
    simp only [List.mem_append, if_true, Bool.false_eq_true, if_false, List.not_mem_nil] <;> grind

theorem Inserted.mem_iff {R : List Mark → List Mark → Prop} {e : SetExpr} {ms printed : List Mark}
    (h : Inserted D R e ms printed) (hR : ∀ ms shown, R ms shown → ∀ m, m ∈ shown ↔ m ∈ ms)
    (m : Mark) : m ∈ printed ↔ m ∈ marks (D.setExpr e) ∨ m ∈ ms := by
  induction h with
  | select s ms shown h =>
      rw [marks_setExpr_select]
      simp only [List.mem_append, hR ms shown h m]
      grind
  | setOperation op quantifier hl hr ihl ihr =>
      rw [marks_setExpr_setOperation]
      simp only [List.mem_append, ihl, ihr]
      grind
  | query ctes order limit fetch rest h ih =>
      rw [marks_setExpr_query, marks_query]
      simp only [List.mem_append, ih]
      grind
  | values rows => simp
  | table name => simp
  | other form args => simp

theorem Printed.mem_iff {params : Params} {q : Query} {ms printed : List Mark}
    (h : Printed D cfg params q ms printed) (m : Mark) :
    m ∈ printed ↔ m ∈ keptMarks D params q ∨ m ∈ ms := by
  obtain ⟨body, hbody, rfl⟩ := h
  have hmem := hbody.mem_iff D (fun _ _ harranged => harranged.mem_iff) m
  rw [keptMarks]
  simp only [List.mem_append, hmem]
  grind

end SqlxData.Dynamic
