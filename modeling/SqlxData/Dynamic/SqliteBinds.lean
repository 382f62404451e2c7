import SqlxData.Dynamic.BindOrigins
import SqlxData.Dynamic.PlainWords
import SqlxData.Sqlparser.Reference

/-!
`?` placeholders in a build whose generated placeholders are `$n`: SQLite gives
each parameter of the text a number, and the built text has to list the value
of every parameter under its number.
-/

namespace SqlxData.Dynamic

open SqlxData.Sqlparser NumberedText

variable {cfg : Config} {D : Display} {parser : Core.Parser} {baseSql : List Char} {q : Query}
  {params : Params} {n : ℕ}

/-! ### SQLite's numbers -/

/-- A parameter of a text: `?` has no name. -/
def parameterName (text : String) : Option String := if text = "?" then none else some text

/-- The parameters in the order of their numbers: every `?` is a new one, a
name only when it is met for the first time. -/
def sqliteParameters : List (Option String) → List String → List (Option String)
  | known, [] => known
  | known, text :: texts =>
      if parameterName text ≠ none ∧ parameterName text ∈ known then sqliteParameters known texts
      else sqliteParameters (known ++ [parameterName text]) texts

/-- The number of each parameter of a text: that of the same name, or the one
after the largest so far. -/
def sqliteNumbersFrom : List (Option String) → List String → List ℕ
  | _, [] => []
  | known, text :: texts =>
      if parameterName text ≠ none ∧ parameterName text ∈ known then
        rank known (parameterName text) :: sqliteNumbersFrom known texts
      else
        (known.length + 1) :: sqliteNumbersFrom (known ++ [parameterName text]) texts

def sqliteNumbers (texts : List String) : List ℕ := sqliteNumbersFrom [] texts

theorem prefix_sqliteParameters (known : List (Option String)) (texts : List String) :
    known <+: sqliteParameters known texts := by
  induction texts generalizing known with
  | nil => exact List.prefix_rfl
  | cons text texts ih =>
      rw [sqliteParameters]
      split
      · exact ih known
      · exact (List.prefix_append known _).trans (ih _)

theorem mem_sqliteParameters (known : List (Option String)) {texts : List String} {text : String}
    (h : text ∈ texts) : parameterName text ∈ sqliteParameters known texts := by
  induction texts generalizing known with
  | nil => simp at h
  | cons t texts ih =>
      rw [sqliteParameters]
      rcases List.mem_cons.mp h with rfl | h
      · split
        · rename_i hknown
          exact (prefix_sqliteParameters known texts).mem hknown.2
        · exact (prefix_sqliteParameters _ texts).mem (by simp)
      · split
        · exact ih _ h
        · exact ih _ h

/-- No number is left out. -/
theorem mem_sqliteNumbersFrom {known : List (Option String)} {texts : List String} {i : ℕ}
    (hi : known.length < i) (hle : i ≤ (sqliteParameters known texts).length) :
    i ∈ sqliteNumbersFrom known texts := by
  induction texts generalizing known with
  | nil =>
      rw [sqliteParameters] at hle
      omega
  | cons text texts ih =>
      rw [sqliteParameters] at hle
      rw [sqliteNumbersFrom]
      split at hle
      · rename_i hknown
        rw [if_pos hknown]
        exact List.mem_cons_of_mem _ (ih hi hle)
      · rename_i hknown
        rw [if_neg hknown]
        by_cases hnext : i = known.length + 1
        · rw [hnext]
          exact List.mem_cons_self
        · refine List.mem_cons_of_mem _ (ih ?_ hle)
          rw [List.length_append, List.length_singleton]
          omega

theorem sqliteNumbersFrom_of_names {texts : List String} (h : "?" ∉ texts)
    (known : List (Option String)) :
    sqliteNumbersFrom known texts =
      texts.map fun text => rank (firstUse known (texts.map some)) (some text) := by
  induction texts generalizing known with
  | nil => rfl
  | cons text texts ih =>
      obtain ⟨hne, hrest⟩ := not_or.mp (mt List.mem_cons.mpr h)
      have hname : parameterName text = some text := if_neg (Ne.symm hne)
      rw [sqliteNumbersFrom, List.map_cons, List.map_cons, firstUse, hname]
      simp only [ne_eq, reduceCtorEq, not_false_eq_true, true_and]
      split
      · rename_i hknown
        rw [ih hrest, rank_of_prefix (prefix_firstUse known _) hknown]
      · rename_i hknown
        have hlast : rank (known ++ [some text]) (some text) = known.length + 1 := by
          simp [rank, List.idxOf_append, hknown]
        rw [ih hrest, ← hlast, rank_of_prefix (prefix_firstUse (known ++ [some text]) _) (by simp)]

/-- Without `?`, a name has the rank of its first use. -/
theorem sqliteNumbers_of_names {texts : List String} (h : "?" ∉ texts) :
    sqliteNumbers texts = texts.map fun text => rank (firstUse [] texts) text := by
  rw [sqliteNumbers, sqliteNumbersFrom_of_names h]
  apply List.map_congr_left
  intro text htext
  have hmap : firstUse ([].map some) (texts.map some) = (firstUse [] texts).map some :=
    firstUse_map fun a _ b _ hab => Option.some.inj hab
  rw [List.map_nil] at hmap
  rw [hmap, rank_map (mem_firstUse.mpr (Or.inr htext)) fun a _ hab => Option.some.inj hab]

/-! ### Bound parameters -/

/-- The placeholders of the base statement but for those of a LIMIT clause
that is replaced. -/
def remainingMarks (D : Display) (params : Params) (q : Query) : List Mark :=
  withMarks D q.with ++ marks (D.setExpr q.body) ++ (marks (D.orderBy q.orderBy) ++
    (if replacesLimit params then [] else marks (D.limitClause q.limitClause)) ++
    (marks (D.fetch q.fetch) ++ marks (D.queryRest q.rest)))

/-- The values are listed as SQLite reads them: what a remaining placeholder
stands for is still there, and every parameter of the tokens finds its own
value under its number. -/
structure SqliteBound {γ : Type} (meaning : Origin → Option γ) (remaining : List Mark)
    (us : List Tok) (values : List γ) : Prop where
  kept : ∀ m ∈ remaining, ∃ v ∈ values, meaning m.origin = some v
  bound : List.Forall₂ (fun i m => ∃ v, values[i - 1]? = some v ∧ meaning m.origin = some v)
    (sqliteNumbers ((marks us).map Mark.text)) (marks us)

/-- A meaning that tells the origins apart shows where values come from. -/
theorem SqliteBound.origins {γ : Type} {f : Origin → Option γ} {s : Set Origin}
    {remaining : List Mark} {us : List Tok} {values : List γ} {origins : List Origin}
    (h : SqliteBound f remaining us values) (hf : Set.InjOn f s)
    (hvalues : values.map some = origins.map f) (horigins : ∀ o ∈ origins, o ∈ s)
    (hremaining : ∀ m ∈ remaining, m.origin ∈ s) (hus : ∀ m ∈ marks us, m.origin ∈ s) :
    SqliteBound some remaining us origins := by
  have hat : ∀ (i : ℕ) (o : Origin) (v : γ), o ∈ s → values[i]? = some v → f o = some v →
      origins[i]? = some o := by
    intro i o v ho hv hov
    have hmap : (values[i]?).map some = (origins[i]?).map f := by
      rw [← List.getElem?_map, hvalues, List.getElem?_map]
    rw [hv, Option.map_some, eq_comm, Option.map_eq_some_iff] at hmap
    obtain ⟨o', ho', hfo'⟩ := hmap
    have hmem := horigins o' (List.mem_of_getElem? ho')
    rw [ho', hf ho hmem (hov.trans hfo'.symm)]
  constructor
  · intro m hm
    obtain ⟨v, hv, hmeaning⟩ := h.kept m hm
    obtain ⟨i, hi⟩ := List.mem_iff_getElem?.mp hv
    exact ⟨_, List.mem_of_getElem? (hat i _ v (hremaining m hm) hi hmeaning), rfl⟩
  · have hbound : ∀ {is : List ℕ} {ms : List Mark}, (∀ m ∈ ms, m.origin ∈ s) →
        List.Forall₂ (fun i m => ∃ v, values[i - 1]? = some v ∧ f m.origin = some v) is ms →
        List.Forall₂ (fun i m => ∃ o, origins[i - 1]? = some o ∧ some m.origin = some o) is ms := by
      intro is ms hms hread
      induction hread with
      | nil => exact .nil
      | @cons i m is ms hread hrest ih =>
          obtain ⟨v, hv, hmeaning⟩ := hread
          exact .cons ⟨_, hat (i - 1) _ v (hms m (by simp)) hv hmeaning, rfl⟩
            (ih fun m hm => hms m (by simp [hm]))
    exact hbound hus h.bound

/-- What holds of the origins holds of the values they stand for. -/
theorem SqliteBound.map {γ : Type} {f : Origin → Option γ} {remaining : List Mark}
    {us : List Tok} {values : List γ} {origins : List Origin}
    (h : SqliteBound some remaining us origins) (hvalues : values.map some = origins.map f) :
    SqliteBound f remaining us values := by
  have hat : ∀ (i : ℕ) (o : Origin), origins[i]? = some o →
      ∃ v, values[i]? = some v ∧ f o = some v := by
    intro i o ho
    have hmap : (values[i]?).map some = (origins[i]?).map f := by
      rw [← List.getElem?_map, hvalues, List.getElem?_map]
    rw [ho, Option.map_some, Option.map_eq_some_iff] at hmap
    obtain ⟨v, hv, hfo⟩ := hmap
    exact ⟨v, hv, hfo.symm⟩
  constructor
  · intro m hm
    obtain ⟨o, ho, horigin⟩ := h.kept m hm
    obtain ⟨i, hi⟩ := List.mem_iff_getElem?.mp ho
    obtain ⟨v, hv, hfo⟩ := hat i o hi
    exact ⟨v, List.mem_of_getElem? hv, by rw [Option.some.inj horigin, hfo]⟩
  · refine h.bound.imp fun i m hread => ?_
    obtain ⟨o, ho, horigin⟩ := hread
    rw [Option.some.inj horigin]
    exact hat (i - 1) o ho

/-! ### Texts with no number but the generated ones -/

/-- The `j`-th generated placeholder behind `k` bind values; the counter has
eight bits. -/
def wrappedMark (k j : ℕ) (v : FilterValue) : Mark :=
  ⟨"$" ++ toString ((k + 1 + j) % 2 ^ 8), .pushed v⟩

theorem mem_issued_sqlite (hbackend : cfg.backend = .sqlite) (k : ℕ) (generated : List FilterValue)
    (m : Mark) :
    m ∈ issued cfg (startIndex k 0 + 1) generated ↔
      ∃ j v, generated[j]? = some v ∧ m = wrappedMark k j v := by
  have htext : ∀ j, placeholderText cfg (advance cfg (startIndex k 0 + 1) j) =
      "$" ++ toString ((k + 1 + j) % 2 ^ 8) := by
    intro j
    have hvalue : (startIndex k 0 + 1 + UInt8.ofNat j).toNat = (k + 1 + j) % 2 ^ 8 := by
      simp only [startIndex, gt_iff_lt, Nat.lt_irrefl, if_false, UInt8.toNat_add,
        UInt8.toNat_ofNat', UInt8.toNat_one]
      omega
    simp only [placeholderText, advance, hbackend, hvalue]
  rw [List.mem_iff_getElem?]
  simp only [getElem?_issued, Option.map_eq_some_iff, htext]
  constructor
  · rintro ⟨j, v, hv, rfl⟩
    exact ⟨j, v, hv, rfl⟩
  · rintro ⟨j, v, hv, rfl⟩
    exact ⟨j, v, hv, rfl⟩

theorem numbers_wrappedMark (k j : ℕ) (v : FilterValue) :
    placeholderNumbers (wrappedMark k j v).text.toList = [(k + 1 + j) % 2 ^ 8] :=
  placeholderNumbers_dollar (by rw [usizeBound]; omega)

/-- `$k` written out tells `k`. -/
theorem dollar_injective {a b : ℕ} (h : "$" ++ toString a = "$" ++ toString b) : a = b := by
  have hcut : ∀ k ≤ max a b,
      pieces (max a b + 1) ("$" ++ toString k).toList = [Piece.marker k] := by
    intro k hk
    have hmarker := @pieces_marker (max a b + 1) k (by omega) [] (by simp)
    rw [List.append_nil] at hmarker
    rw [String.toList_append]
    exact hmarker
  have ha := hcut a (by omega)
  rw [h, hcut b (by omega)] at ha
  simpa using ha.symm

theorem marks_map_relabel_text (f : ℕ → ℕ) (ts : List Tok) :
    marks (ts.map (Tok.relabel f)) = (marks ts).map fun m =>
      ⟨String.ofList (spell (NumberedText.relabel f (pieces usizeBound m.text.toList))), m.origin⟩ := by
  induction ts with
  | nil => rfl
  | cons t ts ih => cases t <;> simp [Tok.relabel, ih]

section Clean

variable {ts : List Tok} {kept remaining : List Mark} {generated : List FilterValue} {k : ℕ}

/-- The printed text has base `?` and generated placeholders, and no number of
its own. -/
structure CleanText (ts : List Tok) (kept : List Mark) (generated : List FilterValue) (k : ℕ) :
    Prop where
  separated : Separated ts
  plain : PlainWords ts
  questions : ∀ m ∈ kept, ∃ i, m = questionMark i
  printed : ∀ m, m ∈ marks ts ↔
    m ∈ kept ∨ ∃ j v, generated[j]? = some v ∧ m = wrappedMark k j v

variable (h : CleanText ts kept generated k)
include h

theorem CleanText.mem_order (x : ℕ) :
    x ∈ numberOrder (render ts) ↔ ∃ j < generated.length, x = (k + 1 + j) % 2 ^ 8 := by
  rw [numberOrder, mem_firstUse, placeholderNumbers_of_plainWords h.separated h.plain]
  simp only [List.not_mem_nil, false_or, List.mem_flatMap]
  constructor
  · rintro ⟨m, hm, hx⟩
    rcases (h.printed m).mp hm with hkept | ⟨j, v, hv, rfl⟩
    · obtain ⟨i, rfl⟩ := h.questions m hkept
      rw [questionMark, placeholderNumbers_question] at hx
      simp at hx
    · rw [numbers_wrappedMark, List.mem_singleton] at hx
      exact ⟨j, (List.getElem?_eq_some_iff.mp hv).1, hx⟩
  · rintro ⟨j, hj, rfl⟩
    refine ⟨wrappedMark k j generated[j], (h.printed _).mpr (Or.inr ⟨j, _, by simp [hj], rfl⟩), ?_⟩
    rw [numbers_wrappedMark, List.mem_singleton]

/-- Every number but `$0` picks a value. -/
theorem CleanText.isSome_pick {x : ℕ} (hx : x ∈ numberOrder (render ts)) :
    (pickedBind (bindOrigins k generated) [] 0 x).isSome ↔ x ≠ 0 := by
  obtain ⟨j, hj, hxj⟩ := (h.mem_order x).mp hx
  rw [pickedBind_no_numbers]
  by_cases hzero : x = 0
  · simp [hzero]
  · have hmod : (k + 1 + j) % 2 ^ 8 ≤ k + 1 + j := Nat.mod_le _ _
    have hlt : x - 1 < (bindOrigins k generated).length := by
      simp only [bindOrigins, List.length_append, List.length_map, List.length_range]
      omega
    simp [hzero, hlt]

theorem CleanText.order_lt {x : ℕ} (hx : x ∈ numberOrder (render ts)) : x < usizeBound := by
  obtain ⟨j, -, rfl⟩ := (h.mem_order x).mp hx
  rw [usizeBound]
  omega

/-- The name of a number in the built text. -/
def shownName (ts : List Tok) (x : ℕ) : String := "$" ++ toString (rank (numberOrder (render ts)) x)

omit h in
theorem shownName_ne_question (ts : List Tok) (x : ℕ) : shownName ts x ≠ "?" := by
  intro heq
  have hlist := congrArg String.toList heq
  rw [shownName, String.toList_append] at hlist
  exact absurd (List.cons.inj hlist).1 (by decide)

omit h in
theorem shownName_injective {x y : ℕ} (hx : x ∈ numberOrder (render ts))
    (hxy : shownName ts x = shownName ts y) : x = y := by
  have hidx := dollar_injective hxy
  rw [rank, rank, Nat.add_right_cancel_iff] at hidx
  exact (List.idxOf_inj hx).mp hidx

theorem CleanText.text_of_wrappedMark {j : ℕ} {v : FilterValue} (hv : generated[j]? = some v) :
    String.ofList (spell (NumberedText.relabel (rank (numberOrder (render ts)))
      (pieces usizeBound (wrappedMark k j v).text.toList))) =
      shownName ts ((k + 1 + j) % 2 ^ 8) :=
  relabel_dollar _ (h.order_lt ((h.mem_order _).mpr
    ⟨j, (List.getElem?_eq_some_iff.mp hv).1, rfl⟩))

/-- SQLite counts every `?` and every number of the text, but each bind value
was picked for a number other than `$0`. -/
theorem CleanText.no_questions
    (hbound : List.Forall₂ (fun i m => ∃ o,
        ((numberOrder (render ts)).filterMap (pickedBind (bindOrigins k generated) [] 0))[i - 1]? =
          some o ∧ some m.origin = some o)
      (sqliteNumbers ((marks (ts.map (Tok.relabel (rank (numberOrder (render ts)))))).map Mark.text))
      (marks (ts.map (Tok.relabel (rank (numberOrder (render ts))))))) :
    kept = [] ∧ 0 ∉ numberOrder (render ts) := by
  rw [marks_map_relabel_text] at hbound
  generalize hpicked : (numberOrder (render ts)).filterMap
    (pickedBind (bindOrigins k generated) [] 0) = picked at hbound
  generalize htexts : (List.map Mark.text _) = texts at hbound
  rw [List.map_map] at htexts
  have hallBound : ∀ i ∈ sqliteNumbers texts, i - 1 < picked.length := by
    intro i hi
    obtain ⟨m, o, ho, -⟩ := exists_of_forall₂ hbound hi
    exact (List.getElem?_eq_some_iff.mp ho).1
  have hparameters : (sqliteParameters [] texts).length ≤ picked.length := by
    by_contra hlt
    have hlast : (sqliteParameters [] texts).length ∈ sqliteNumbers texts :=
      mem_sqliteNumbersFrom (by rw [List.length_nil]; omega) le_rfl
    have := hallBound _ hlast
    omega
  have hpickedLength : picked.length ≤ (numberOrder (render ts)).length := by
    rw [← hpicked]
    exact List.length_filterMap_le _ _
  have hnodup : ((numberOrder (render ts)).map fun x => some (shownName ts x)).Nodup := by
    refine List.Nodup.map_on ?_ (nodup_firstUse _ List.nodup_nil)
    intro x hx y _ hxy
    exact shownName_injective hx (Option.some.inj hxy)
  have hnames : ((numberOrder (render ts)).map fun x => some (shownName ts x)) ⊆
      sqliteParameters [] texts := by
    intro name hname
    obtain ⟨x, hx, rfl⟩ := List.mem_map.mp hname
    obtain ⟨j, hj, rfl⟩ := (h.mem_order x).mp hx
    have hv : generated[j]? = some generated[j] := by simp [hj]
    have hmark := (h.printed _).mpr (Or.inr ⟨j, _, hv, rfl⟩)
    have htext : shownName ts ((k + 1 + j) % 2 ^ 8) ∈ texts := by
      rw [← htexts, ← h.text_of_wrappedMark hv]
      exact List.mem_map_of_mem hmark
    have hmem := mem_sqliteParameters [] htext
    rwa [parameterName, if_neg (shownName_ne_question ts _)] at hmem
  constructor
  · rw [List.eq_nil_iff_forall_not_mem]
    intro m hm
    obtain ⟨i, rfl⟩ := h.questions m hm
    have htext : "?" ∈ texts := by
      rw [← htexts]
      exact List.mem_map.mpr ⟨questionMark i, (h.printed _).mpr (Or.inl hm), relabel_question _⟩
    have hquestion : none ∈ sqliteParameters [] texts := mem_sqliteParameters [] htext
    have hle := (List.subperm_of_subset (List.nodup_cons.mpr ⟨by simp, hnodup⟩)
      (List.cons_subset.mpr ⟨hquestion, hnames⟩)).length_le
    rw [List.length_cons, List.length_map] at hle
    omega
  · intro hzero
    have hle := (List.subperm_of_subset hnodup hnames).length_le
    rw [List.length_map] at hle
    have hlt : picked.length < (numberOrder (render ts)).length := by
      rw [← hpicked, List.length_filterMap_lt_length_iff_exists]
      exact ⟨0, hzero, pickedBind_no_numbers _ 0⟩
    omega

/-- With generated placeholders only, every number reads the value picked for
it. -/
theorem CleanText.bound_iff (hkept : kept = []) (hzero : 0 ∉ numberOrder (render ts)) :
    List.Forall₂ (fun i m => ∃ o,
        ((numberOrder (render ts)).filterMap (pickedBind (bindOrigins k generated) [] 0))[i - 1]? =
          some o ∧ some m.origin = some o)
      (sqliteNumbers ((marks (ts.map (Tok.relabel (rank (numberOrder (render ts)))))).map Mark.text))
      (marks (ts.map (Tok.relabel (rank (numberOrder (render ts)))))) ↔
    ∀ j v, generated[j]? = some v →
      (bindOrigins k generated)[(k + 1 + j) % 2 ^ 8 - 1]? = some (.pushed v) := by
  subst hkept
  have hmarks : ∀ m, m ∈ marks ts ↔ ∃ j v, generated[j]? = some v ∧ m = wrappedMark k j v := by
    simpa using h.printed
  have hnumber : ∀ m ∈ marks ts, placeholderNumbers m.text.toList = [markNumber m] := by
    intro m hm
    obtain ⟨j, v, -, rfl⟩ := (hmarks m).mp hm
    rw [markNumber, numbers_wrappedMark]
    rfl
  have hnumbers := placeholderNumbers_eq_map h.separated h.plain hnumber
  have horder : ∀ m ∈ marks ts, markNumber m ∈ numberOrder (render ts) := by
    intro m hm
    rw [numberOrder, mem_firstUse, hnumbers]
    exact Or.inr (List.mem_map_of_mem hm)
  have hpick : ∀ x ∈ numberOrder (render ts),
      (pickedBind (bindOrigins k generated) [] 0 x).isSome := fun x hx =>
    (h.isSome_pick hx).mpr fun hx0 => hzero (hx0 ▸ hx)
  have htexts : ((marks (ts.map (Tok.relabel (rank (numberOrder (render ts)))))).map Mark.text) =
      ((marks ts).map markNumber).map (shownName ts) := by
    rw [marks_map_relabel_text, List.map_map, List.map_map]
    apply List.map_congr_left
    intro m hm
    obtain ⟨j, v, hv, rfl⟩ := (hmarks m).mp hm
    rw [Function.comp_apply, Function.comp_apply, markNumber, numbers_wrappedMark]
    exact h.text_of_wrappedMark hv
  have hsqlite : sqliteNumbers (((marks ts).map markNumber).map (shownName ts)) =
      (marks ts).map fun m => rank (numberOrder (render ts)) (markNumber m) := by
    have hfirst : firstUse ([].map (shownName ts)) (((marks ts).map markNumber).map (shownName ts)) =
        (numberOrder (render ts)).map (shownName ts) := by
      rw [firstUse_map, ← hnumbers]
      · rfl
      · intro x hx y _ hxy
        refine shownName_injective ?_ hxy
        rw [numberOrder, mem_firstUse, hnumbers]
        exact Or.inr hx
    rw [List.map_nil] at hfirst
    rw [sqliteNumbers_of_names fun hmem => ?_, hfirst, List.map_map, List.map_map]
    · apply List.map_congr_left
      intro m hm
      exact rank_map (horder m hm) fun x hx hxy => shownName_injective hx hxy
    · obtain ⟨x, -, hx⟩ := List.mem_map.mp hmem
      exact shownName_ne_question ts x hx
  rw [htexts, hsqlite, marks_map_relabel_text, List.forall₂_map_left_iff,
    List.forall₂_map_right_iff, List.forall₂_same]
  have hread : ∀ m ∈ marks ts, ((numberOrder (render ts)).filterMap
      (pickedBind (bindOrigins k generated) [] 0))[rank (numberOrder (render ts)) (markNumber m) - 1]? =
        pickedBind (bindOrigins k generated) [] 0 (markNumber m) := by
    intro m hm
    have hget : (numberOrder (render ts))[rank (numberOrder (render ts)) (markNumber m) - 1]? =
        some (markNumber m) := List.getElem?_idxOf (horder m hm)
    rw [getElem?_filterMap_of_isSome hpick, hget, Option.bind_some]
  constructor
  · intro hall j v hv
    have hm := (hmarks _).mpr ⟨j, v, hv, rfl⟩
    obtain ⟨o, ho, heq⟩ := hall _ hm
    have hne : (k + 1 + j) % 2 ^ 8 ≠ 0 := by
      intro hx
      have hmem := horder _ hm
      rw [markNumber, numbers_wrappedMark, List.headD_cons, hx] at hmem
      exact hzero hmem
    rw [hread _ hm, markNumber, numbers_wrappedMark, List.headD_cons, pickedBind_no_numbers,
      if_neg hne] at ho
    rw [ho]
    exact heq.symm
  · intro hall m hm
    have hmem := horder m hm
    have hget := hread m hm
    obtain ⟨j, v, hv, rfl⟩ := (hmarks m).mp hm
    rw [markNumber, numbers_wrappedMark, List.headD_cons] at hmem hget
    have hne : (k + 1 + j) % 2 ^ 8 ≠ 0 := fun hx => hzero (hx ▸ hmem)
    refine ⟨.pushed v, ?_, rfl⟩
    rw [markNumber, numbers_wrappedMark, List.headD_cons, hget, pickedBind_no_numbers, if_neg hne,
      hall j v hv]

/-- Every placeholder finds its value exactly when the base statement has no
`?` of its own and the counter does not run over. -/
theorem CleanText.bound_origins_iff (hremaining : ∀ m ∈ remaining, ∃ i, m = questionMark i)
    (hsub : kept ⊆ remaining) (hgenerated : generated ≠ [])
    (hcounter : ¬(generated.length = 1 ∧ (k + 1) % 2 ^ 8 = 0)) :
    SqliteBound some remaining (renumberedTokens (bindOrigins k generated) [] 0 ts)
        (renumberNumberedPlaceholdersWithBinds (bindOrigins k generated) [] 0 (render ts)).2 ↔
      remaining = [] ∧ k + generated.length ≤ 255 := by
  have hpos : 0 < generated.length := List.length_pos_iff.mpr hgenerated
  have hpicked : ((numberOrder (render ts)).filterMap
      (pickedBind (bindOrigins k generated) [] 0)).isEmpty = false := by
    have hexists : ∃ x ∈ numberOrder (render ts), x ≠ 0 := by
      by_cases hfirst : (k + 1) % 2 ^ 8 = 0
      · exact ⟨_, (h.mem_order _).mpr ⟨1, by omega, rfl⟩, by omega⟩
      · exact ⟨_, (h.mem_order _).mpr ⟨0, hpos, rfl⟩, by simpa using hfirst⟩
    obtain ⟨x, hx, hne⟩ := hexists
    obtain ⟨o, ho⟩ := Option.isSome_iff_exists.mp ((h.isSome_pick hx).mpr hne)
    rw [List.isEmpty_eq_false_iff_exists_mem]
    exact ⟨o, List.mem_filterMap.mpr ⟨x, hx, ho⟩⟩
  rw [renumberedTokens, renumberNumberedPlaceholdersWithBinds_eq]
  simp only [hpicked, Bool.false_eq_true, if_false]
  constructor
  · rintro ⟨hall, hbound⟩
    obtain ⟨hkept, hzero⟩ := h.no_questions hbound
    have hread := (h.bound_iff hkept hzero).mp hbound
    have hnotZero : ∀ j < generated.length, (k + 1 + j) % 2 ^ 8 ≠ 0 := fun j hj hx =>
      hzero ((h.mem_order 0).mpr ⟨j, hj, hx.symm⟩)
    have hbehind : ∀ j < generated.length, k ≤ (k + 1 + j) % 2 ^ 8 - 1 := by
      intro j hj
      by_contra hlt
      have hget := hread j generated[j] (by simp [hj])
      rw [bindOrigins, List.getElem?_append_left (by simp; omega)] at hget
      simp at hget
    have hcount : k + generated.length ≤ 255 := by
      by_contra hover
      have hfirst := hbehind 0 hpos
      exact hnotZero (255 - k) (by omega) (by omega)
    refine ⟨List.eq_nil_iff_forall_not_mem.mpr fun m hm => ?_, hcount⟩
    -- a base `?` would have to be picked for the number of a generated one
    obtain ⟨i, rfl⟩ := hremaining m hm
    obtain ⟨o, ho, horigin⟩ := hall _ hm
    obtain ⟨x, hx, hpick⟩ := List.mem_filterMap.mp ho
    obtain ⟨j, hj, rfl⟩ := (h.mem_order x).mp hx
    rw [pickedBind_no_numbers, if_neg (hnotZero j hj), hread j generated[j] (by simp [hj]),
      ← horigin] at hpick
    simp [questionMark] at hpick
  · rintro ⟨rfl, hcount⟩
    have hkept : kept = [] := List.subset_nil.mp hsub
    have hzero : 0 ∉ numberOrder (render ts) := by
      rw [h.mem_order]
      rintro ⟨j, hj, hx⟩
      omega
    refine ⟨by simp, (h.bound_iff hkept hzero).mpr fun j v hv => ?_⟩
    have hj := (List.getElem?_eq_some_iff.mp hv).1
    have hposition : (k + 1 + j) % 2 ^ 8 - 1 = k + j := by omega
    rw [hposition, bindOrigins, List.getElem?_append_right (by simp)]
    simp [hv]

end Clean

/-! ### The exact condition -/

/-- The tokens of the built text. -/
def builtTokens (k : ℕ) (generated : List FilterValue) (baseSql : List Char) (ts : List Tok) :
    List Tok :=
  renumberedTokens (bindOrigins k generated) (collectNumberedPlaceholders baseSql)
    (maxPlaceholder (collectNumberedPlaceholders baseSql)) ts

theorem sql_numberedAnew {initialBinds : List FilterValue} {k : ℕ}
    (hk : k ≤ initialBinds.length) (generated : List FilterValue) {ts : List Tok}
    (hseparated : Separated ts) :
    (numberedAnew baseSql (render ts) (initialBinds.take k ++ generated)).sql =
      render (builtTokens k generated baseSql ts) := by
  rw [builtTokens, ← renumberedTokens_map (meaning initialBinds), map_meaning_bindOrigins hk,
    renumberedTokens_map, render_renumberedTokens _ _ _ hseparated]
  rfl

/-- The numbering leaves the origins of the placeholders as they are. -/
theorem origin_builtTokens {k : ℕ} {generated : List FilterValue} {ts : List Tok}
    {P : Origin → Prop} (h : ∀ m ∈ marks ts, P m.origin) :
    ∀ m ∈ marks (builtTokens k generated baseSql ts), P m.origin := by
  intro m hm
  rw [builtTokens, renumberedTokens] at hm
  split at hm
  · exact h m hm
  · rw [marks_map_relabel_text] at hm
    obtain ⟨m', hm', rfl⟩ := List.mem_map.mp hm
    exact h m' hm'

/-- The generated placeholders are the only `$number` the numbering finds:
there is none in the base text and none in the words that are printed. -/
structure OnlyGeneratedNumbers (D : Display) (params : Params) (q : Query) (baseSql : List Char) :
    Prop where
  base : placeholderNumbers baseSql = []
  printed : PlainInput D params q

/-- The eight-bit counter has run over to `$0` for the only generated
placeholder; no value is picked for it, and the text keeps its numbers. -/
def OnlyZero (k : ℕ) (generated : List FilterValue) : Prop :=
  generated.length = 1 ∧ (k + 1) % 2 ^ 8 = 0

theorem mem_remainingMarks_of_kept {m : Mark} (hm : m ∈ keptMarks D params q) :
    m ∈ remainingMarks D params q := by
  rw [keptMarks, tailMarks] at hm
  rw [remainingMarks]
  simp only [List.mem_append] at hm ⊢
  rcases hm with hm | ⟨horder | hlimit⟩ | hm
  · exact Or.inl hm
  · split at horder
    · simp at horder
    · exact Or.inr (Or.inl (Or.inl horder))
  · exact Or.inr (Or.inl (Or.inr hlimit))
  · exact Or.inr (Or.inr hm)

theorem remainingMarks_subset : remainingMarks D params q ⊆ marks (D.query q) := by
  intro m hm
  rw [remainingMarks] at hm
  rw [marks_query]
  simp only [List.mem_append] at hm ⊢
  rcases hm with hm | ⟨horder | hlimit⟩ | hm
  · exact Or.inl hm
  · exact Or.inr (Or.inl (Or.inl horder))
  · split at hlimit
    · simp at hlimit
    · exact Or.inr (Or.inl (Or.inr hlimit))
  · exact Or.inr (Or.inr hm)

/-- Whatever the arguments are, every parameter of a built text finds its own
value under SQLite's numbers. -/
def AlwaysSqliteBound (cfg : Config) (D : Display) (parser : Core.Parser) (baseSql : List Char)
    (params : Params) (n : ℕ) (remaining : List Mark) (us : List Tok) : Prop :=
  ∀ initialBinds, initialBinds.length = n → ∀ built,
    buildDynamicSql cfg D parser baseSql params initialBinds = .ok built →
      built.sql = render us ∧ SqliteBound (meaning initialBinds) remaining us built.bindValues

/-- Every argument list gives the same tokens, and values where their origins
are; some arguments tell all origins apart. -/
theorem alwaysSqliteBound_iff_origins {k : ℕ} {generated : List FilterValue} {ts : List Tok}
    {remaining : List Mark} (hkn : k ≤ n) (hseparated : Separated ts)
    (hbuilt : ∀ initialBinds : List FilterValue, initialBinds.length = n →
      buildDynamicSql cfg D parser baseSql params initialBinds =
        .ok (numberedAnew baseSql (render ts) (initialBinds.take k ++ generated)))
    (hremaining : ∀ m ∈ remaining, m.origin ∈ bindOrigins n generated)
    (hshown : ∀ m ∈ marks ts, m.origin ∈ bindOrigins n generated) :
    AlwaysSqliteBound cfg D parser baseSql params n remaining
        (builtTokens k generated baseSql ts) ↔
      SqliteBound some remaining (builtTokens k generated baseSql ts)
        (renumberedOrigins k generated baseSql (render ts)) := by
  have hvalues : ∀ initialBinds : List FilterValue, initialBinds.length = n →
      (numberedAnew baseSql (render ts) (initialBinds.take k ++ generated)).bindValues.map some =
        (renumberedOrigins k generated baseSql (render ts)).map (meaning initialBinds) :=
    fun initialBinds hlength => bindValues_numberedAnew (by omega) generated _
  rw [AlwaysSqliteBound, forall_built_iff D hbuilt fun initialBinds built =>
    built.sql = render (builtTokens k generated baseSql ts) ∧
      SqliteBound (meaning initialBinds) remaining (builtTokens k generated baseSql ts)
        built.bindValues]
  constructor
  · intro h
    obtain ⟨telling, htelling, hinj⟩ := exists_telling n generated
    refine (h telling htelling).2.origins hinj (hvalues telling htelling) ?_ hremaining
      (origin_builtTokens hshown)
    exact fun o ho => bindOrigins_subset hkn generated (mem_of_mem_renumbered_binds ho)
  · intro h initialBinds hlength
    exact ⟨sql_numberedAnew (by omega) generated hseparated, h.map (hvalues initialBinds hlength)⟩

/-- What a build with at least one generated `$n` binds when the base statement
uses `?`: every placeholder finds its value under SQLite's numbers when no `?`
of the base statement is left, the counter does not run over and no word looks
like a `$number`. Of the inputs whose words have none, these are all but for a
counter that stops at `$0`. -/
theorem sqliteBound_of_generated {initialBinds₀ binds : List FilterValue} {st : Statement}
    (hbackend : cfg.backend = .sqlite)
    (hparse : Core.parseSql parser baseSql = .ok (some (.query q)))
    (hbase : marks (D.query q) = (List.range n).map questionMark)
    (hgenerated : setExprValues cfg params q.body ≠ []) (hlength₀ : initialBinds₀.length = n)
    (hstatement : dynamicStatement cfg (.query q) params
      (initialBinds₀.take (n - trimmedCount params q))
      (maxPlaceholder (collectNumberedPlaceholders baseSql)) = .ok (st, binds)) :
    (OnlyGeneratedNumbers D params q baseSql ∧ remainingMarks D params q = [] ∧
        n - trimmedCount params q + (setExprValues cfg params q.body).length ≤ 255 →
      AlwaysSqliteBound cfg D parser baseSql params n (remainingMarks D params q)
        (builtTokens (n - trimmedCount params q) (setExprValues cfg params q.body) baseSql
          (D.statement st))) ∧
    (OnlyGeneratedNumbers D params q baseSql →
      ¬OnlyZero (n - trimmedCount params q) (setExprValues cfg params q.body) →
      AlwaysSqliteBound cfg D parser baseSql params n (remainingMarks D params q)
        (builtTokens (n - trimmedCount params q) (setExprValues cfg params q.body) baseSql
          (D.statement st)) →
      remainingMarks D params q = [] ∧
        n - trimmedCount params q + (setExprValues cfg params q.body).length ≤ 255) := by
  suffices hexact : OnlyGeneratedNumbers D params q baseSql →
      ¬OnlyZero (n - trimmedCount params q) (setExprValues cfg params q.body) →
      (AlwaysSqliteBound cfg D parser baseSql params n (remainingMarks D params q)
          (builtTokens (n - trimmedCount params q) (setExprValues cfg params q.body) baseSql
            (D.statement st)) ↔
        remainingMarks D params q = [] ∧
          n - trimmedCount params q + (setExprValues cfg params q.body).length ≤ 255) by
    refine ⟨fun ⟨hclean, hremaining, hcount⟩ => ?_, fun hclean hzero => (hexact hclean hzero).mp⟩
    refine (hexact hclean ?_).mpr ⟨hremaining, hcount⟩
    rintro ⟨hone, hwrapped⟩
    omega
  intro hclean hcounter
  have hplainWords := hclean.printed.statement D hstatement
  obtain ⟨hrun, q', rfl, hprinted⟩ := dynamicStatement_spec D hstatement
  have hmem := hprinted.mem_iff D
  generalize setExprValues cfg params q.body = generated at *
  generalize hk : n - trimmedCount params q = k at *
  have hkn : k ≤ n := by omega
  rw [show D.statement (.query q') = D.query q' from rfl]
  have hquestion : ∀ m ∈ marks (D.query q), ∃ i < n, m = questionMark i :=
    fun m hm => exists_questionMark_of_mem hbase hm
  have hbuilt : ∀ initialBinds : List FilterValue, initialBinds.length = n →
      buildDynamicSql cfg D parser baseSql params initialBinds =
        .ok (numberedAnew baseSql (render (D.query q')) (initialBinds.take k ++ generated)) := by
    intro initialBinds hlength
    have hquestions : ∀ m ∈ marks (D.limitClause q.limitClause), m.text = "?" := by
      intro m hm
      obtain ⟨i, -, rfl⟩ := hquestion m (by rw [marks_query]; simp [hm])
      rfl
    rw [buildDynamicSql_of_baseBinds D hparse params
      (baseBinds_questions D params hquestions initialBinds), hlength, hk,
      hrun (initialBinds.take k) (by simp [hlength, hlength₀])]
    rfl
  rw [alwaysSqliteBound_iff_origins hkn (D.separated q') hbuilt
    (fun m hm => origin_base_mem hbase generated (remainingMarks_subset hm))
    (hprinted.origin_mem hbase)]
  have hcollect : collectNumberedPlaceholders baseSql = [] := by
    rw [collectNumberedPlaceholders_eq, hclean.base]
    rfl
  have hlen : (initialBinds₀.take k).length = k := by simp [hlength₀, hkn]
  rw [hcollect, hlen] at hmem
  have htextClean : CleanText (D.query q') (keptMarks D params q) generated k :=
    ⟨D.separated q', hplainWords, fun m hm =>
      (hquestion m (keptMarks_subset D params q hm)).imp fun i hi => hi.2, fun m => by
        rw [hmem]
        exact or_congr_right (mem_issued_sqlite hbackend k generated m)⟩
  rw [builtTokens, renumberedOrigins, hcollect]
  exact htextClean.bound_origins_iff
    (fun m hm => (hquestion m (remainingMarks_subset hm)).imp fun i hi => hi.2)
    (fun m hm => mem_remainingMarks_of_kept hm) hgenerated hcounter

/-! ### Examples -/

namespace SqliteExample

open Reference

def users (selection : Option Expr) : Query :=
  simpleQuery (.select (simpleSelect [.wildcard] "users" selection))

/-- `SELECT * FROM users WHERE age > ?` -/
def adults : Query := users (some (gt "age" (valueExpr (.placeholder "?" (.argument 0)))))

end SqliteExample

open SqliteExample Example Reference

/-- A filter on a statement with one `?`: the age is dropped, the city takes
its place and `$1`, SQLite's second parameter, has no value. -/
theorem argument_dropped :
    ∃ st binds,
      dynamicStatement (build .sqlite) (.query adults) inBonn [.int 18] 0 = .ok (st, binds) ∧
      ∃ built,
        buildDynamicSql (build .sqlite) Display.reference (parserOf adults) (text adults) inBonn
          [.int 18] = .ok built ∧
        built.sql = "SELECT * FROM users WHERE age > ? AND city = $1".toList ∧
        built.bindValues = [.string "Bonn"] ∧
        sqliteNumbers ["?", "$1"] = [1, 2] ∧
        ¬SqliteBound (meaning [.int 18]) (remainingMarks Display.reference inBonn adults)
          (builtTokens 1 [.string "Bonn"] (text adults) (Display.reference.statement st))
          built.bindValues := by
  refine ⟨_, _, rfl, _, rfl, by decide, by decide, by decide, fun h => ?_⟩
  obtain ⟨v, hv, hmeaning⟩ := h.kept (questionMark 0) (by decide)
  obtain rfl : FilterValue.int 18 = v := Option.some.inj hmeaning
  revert hv
  decide

/-- Without a `?` in the base statement, the filter finds its value. -/
theorem generated_bound :
    ∃ st binds,
      dynamicStatement (build .sqlite) (.query (users none)) inBonn [] 0 = .ok (st, binds) ∧
      ∃ built,
        buildDynamicSql (build .sqlite) Display.reference (parserOf (users none)) (text (users none))
          inBonn [] = .ok built ∧
        SqliteBound (meaning []) (remainingMarks Display.reference inBonn (users none))
          (builtTokens 0 [.string "Bonn"] (text (users none)) (Display.reference.statement st))
          built.bindValues := by
  refine ⟨_, _, rfl, _, rfl, ?_⟩
  exact ((@sqliteBound_of_generated (build .sqlite) Display.reference (parserOf (users none))
    (text (users none)) (users none) inBonn 0 [] _ _ rfl rfl (by decide) (by decide) rfl rfl).1
      ⟨⟨by decide, by decide, plainRequest_inBonn⟩, by decide, by decide⟩ _ rfl _ rfl).2

end SqlxData.Dynamic
