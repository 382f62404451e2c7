import SqlxData.Dynamic.BindOrigins
import SqlxData.Lib.KeptParts
import SqlxData.Lib.Survivors
import SqlxData.Sqlparser.Reference
import Mathlib.Data.List.ReduceOption

/-!
The arguments of a replaced LIMIT/OFFSET: which bind values
`trim_limit_offset_placeholder_binds` removes, and when these are the ones
that no placeholder needs any more, so that the others are found again.
-/

namespace SqlxData.Dynamic

open SqlxData.Sqlparser NumberedText Survivors

/-! ### What is removed -/

/-- The placeholders of LIMIT and OFFSET, each with its number if it has one. -/
def limitPlaceholders (q : Query) : List (Option ℕ) :=
  q.limitClause.toList.flatMap fun clause => (LimitClause.operands clause).filterMap placeholderIndex

def limitNumbers (q : Query) : List ℕ := (limitPlaceholders q).reduceOption

/-- Is the value at place `p` of `n` removed? Of `count` placeholders without a
number the last values are, for a number its own, and for a number that is
there twice the next one too. -/
def RemovedAt (count n p : ℕ) : List ℕ → Prop
  | [] => n ≤ p + count
  | [k] => p = k - 1
  | k :: k' :: _ => p = k - 1 ∨ p = k' - 1 ∨ k - 1 = k' - 1 ∧ p = k - 1 + 1

instance (count n p : ℕ) : (ks : List ℕ) → Decidable (RemovedAt count n p ks)
  | [] => inferInstanceAs (Decidable (_ ≤ _))
  | [_] => inferInstanceAs (Decidable (_ = _))
  | _ :: _ :: _ => inferInstanceAs (Decidable (_ ∨ _))

def Trimmed (q : Query) (n p : ℕ) : Prop :=
  RemovedAt (limitPlaceholders q).length n p (limitNumbers q)

instance (q : Query) (n p : ℕ) : Decidable (Trimmed q n p) :=
  inferInstanceAs (Decidable (RemovedAt _ _ _ _))

theorem length_limitNumbers_le (q : Query) : (limitNumbers q).length ≤ 2 := by
  have hoperands : ∀ clause : LimitClause, (LimitClause.operands clause).length ≤ 2 := by
    rintro (⟨_ | limit, _ | offset, limitBy⟩ | ⟨offset, limit⟩) <;> simp [LimitClause.operands]
  rw [limitNumbers]
  refine (List.reduceOption_length_le _).trans ?_
  cases hclause : q.limitClause with
  | none => simp [limitPlaceholders, hclause]
  | some clause =>
      simp only [limitPlaceholders, hclause, Option.toList_some, List.flatMap_singleton]
      exact (List.length_filterMap_le _ _).trans (hoperands clause)

/-- The value of a number of the clause is removed. -/
theorem trimmed_of_mem {q : Query} {k : ℕ} (hk : k ∈ limitNumbers q) (n : ℕ) :
    Trimmed q n (k - 1) := by
  have hlength := length_limitNumbers_le q
  rw [Trimmed]
  match hks : limitNumbers q with
  | [] => simp [hks] at hk
  | [a] =>
      rw [hks, List.mem_singleton] at hk
      simp [RemovedAt, hk]
  | a :: b :: rest =>
      obtain rfl : rest = [] := by
        rw [hks] at hlength
        exact List.length_eq_zero_iff.mp (by simp only [List.length_cons] at hlength; omega)
      rw [hks] at hk
      simp only [List.mem_cons, List.not_mem_nil, or_false] at hk
      rcases hk with rfl | rfl <;> simp [RemovedAt]

section Trim

variable {β γ : Type}

theorem trim_fst (q : Query) (l : List β) :
    (trimLimitOffsetPlaceholderBinds q l).1 =
      if limitNumbers q = [] then l.take (l.length - (limitPlaceholders q).length)
      else ((limitNumbers q).insertionSort (· ≥ ·)).foldl removeNumbered l := by
  unfold trimLimitOffsetPlaceholderBinds limitNumbers limitPlaceholders
  split
  · rename_i hclause
    simp [hclause, List.reduceOption]
  · rename_i clause hclause
    simp only [hclause, Option.toList_some, List.flatMap_singleton, ← iterate_dropLast]
    by_cases hnil : ((LimitClause.operands clause).filterMap placeholderIndex).reduceOption = []
    · simp [hnil]
    · have hsorted : ((LimitClause.operands clause).filterMap
          placeholderIndex).reduceOption.insertionSort (· ≥ ·) ≠ [] := by
        intro h
        exact hnil (List.length_eq_zero_iff.mp (by rw [← List.length_insertionSort (· ≥ ·), h]; rfl))
      simp [hnil, hsorted]

theorem mem_trim_snd (q : Query) (l : List β) (k : ℕ) :
    k ∈ (trimLimitOffsetPlaceholderBinds q l).2 ↔ k ∈ limitNumbers q := by
  unfold trimLimitOffsetPlaceholderBinds limitNumbers limitPlaceholders
  split
  · rename_i hclause
    simp [hclause, List.reduceOption]
  · rename_i clause hclause
    simp only [hclause, Option.toList_some, List.flatMap_singleton]
    split <;> exact List.mem_insertionSort _

theorem removeNumbered_eq (l : List β) (k : ℕ) : removeNumbered l k = l.eraseIdx (k - 1) := by
  rw [removeNumbered]
  split
  · rfl
  · exact (List.eraseIdx_eq_self.mpr (by omega)).symm

/-- The values are only moved around. -/
theorem trim_map (f : β → γ) (q : Query) (l : List β) :
    (trimLimitOffsetPlaceholderBinds q (l.map f)).1 =
      (trimLimitOffsetPlaceholderBinds q l).1.map f := by
  have hfold : ∀ (ks : List ℕ) (l : List β),
      ks.foldl removeNumbered (l.map f) = (ks.foldl removeNumbered l).map f := by
    intro ks
    induction ks with
    | nil => exact fun _ => rfl
    | cons k ks ih =>
        intro l
        rw [List.foldl_cons, List.foldl_cons, ← ih, removeNumbered_eq, removeNumbered_eq,
          List.eraseIdx_map]
  rw [trim_fst, trim_fst]
  split
  · rw [List.length_map, List.map_take]
  · exact hfold _ l

end Trim

theorem eraseIdx_range (n i : ℕ) : (List.range n).eraseIdx i = survivors (· ≠ i) n := by
  rw [range_eq_survivors, eraseIdx_survivors]
  refine survivors_congr fun p hp => ?_
  rw [← range_eq_survivors]
  by_cases hi : i < n
  · simp [hi, eq_comm]
  · simp [hi]
    omega

theorem length_survivors_ne (p i : ℕ) :
    (survivors (· ≠ i) p).length = if i < p then p - 1 else p := by
  rw [← eraseIdx_range, List.length_eraseIdx, List.length_range]

/-- Removing by two numbers, the larger first. -/
theorem removeNumbered_pair {high low n : ℕ} (h : low ≤ high) :
    removeNumbered (removeNumbered (List.range n) high) low =
      survivors (fun p => ¬RemovedAt 0 n p [high, low]) n := by
  rw [removeNumbered_eq, removeNumbered_eq, eraseIdx_range, eraseIdx_survivors]
  refine survivors_congr fun p hp => ?_
  rw [RemovedAt]
  by_cases hne : p = high - 1
  · simp [hne]
  have hfound : (survivors (· ≠ high - 1) n)[low - 1]? = some p ↔
      low - 1 = if high - 1 < p then p - 1 else p := by
    rw [← length_survivors_ne]
    refine ⟨eq_of_getElem?_survivors, fun hlow => ?_⟩
    rw [hlow]
    exact getElem?_survivors hp hne
  simp only [ne_eq] at hfound ⊢
  rw [hfound]
  split <;> omega

theorem trim_range (q : Query) (n : ℕ) :
    (trimLimitOffsetPlaceholderBinds q (List.range n)).1 =
      survivors (fun p => ¬Trimmed q n p) n := by
  have hlength := length_limitNumbers_le q
  have htrimmed : survivors (fun p => ¬Trimmed q n p) n =
      survivors (fun p => ¬RemovedAt (limitPlaceholders q).length n p (limitNumbers q)) n := rfl
  rw [trim_fst, htrimmed]
  generalize limitNumbers q = ks at hlength ⊢
  match ks with
  | [] =>
      rw [if_pos rfl, List.length_range, take_range]
      refine survivors_congr fun p hp => ?_
      rw [RemovedAt]
      omega
  | [k] =>
      rw [if_neg (by simp)]
      change removeNumbered (List.range n) k = _
      rw [removeNumbered_eq, eraseIdx_range]
      rfl
  | a :: b :: rest =>
      obtain rfl : rest = [] := by
        exact List.length_eq_zero_iff.mp (by simp only [List.length_cons] at hlength; omega)
      rw [if_neg (by simp)]
      by_cases hab : a ≥ b
      · have hsort : [a, b].insertionSort (· ≥ ·) = [a, b] := by simp [hab]
        rw [hsort]
        change removeNumbered (removeNumbered (List.range n) a) b = _
        rw [removeNumbered_pair hab]
        rfl
      · have hsort : [a, b].insertionSort (· ≥ ·) = [b, a] := by simp [hab]
        rw [hsort]
        change removeNumbered (removeNumbered (List.range n) b) a = _
        rw [removeNumbered_pair (by omega)]
        refine survivors_congr fun p hp => ?_
        simp only [RemovedAt]
        omega

/-! ### What placeholders denote -/

/-- The places of the values that placeholders read: the `?` read the values in
turn, a numbered placeholder the one its number has. `asked` counts the `?`. -/
def readings (position : ℕ → Option ℕ) : ℕ → List Mark → List (Option ℕ)
  | _, [] => []
  | asked, m :: ms =>
      if m.text = "?" then some asked :: readings position (asked + 1) ms
      else position (markNumber m) :: readings position asked ms

/-- What is known of each placeholder and what it reads carries over to other
positions of the numbers. -/
theorem readings_imp {R S : Mark → Option ℕ → Prop} {position position' : ℕ → Option ℕ}
    {ms : List Mark}
    (hquestion : ∀ m ∈ ms, m.text = "?" → ∀ i, R m (some i) → S m (some i))
    (hnumber : ∀ m ∈ ms, m.text ≠ "?" → R m (position (markNumber m)) →
      S m (position' (markNumber m))) {asked : ℕ}
    (h : List.Forall₂ R ms (readings position asked ms)) :
    List.Forall₂ S ms (readings position' asked ms) := by
  induction ms generalizing asked with
  | nil => exact .nil
  | cons m ms ih =>
      have hrest := fun k => @ih (fun m hm => hquestion m (by simp [hm]))
        (fun m hm => hnumber m (by simp [hm])) k
      rw [readings] at h ⊢
      split at h
      · rename_i htext
        obtain ⟨hm, hms⟩ := List.forall₂_cons.mp h
        rw [if_pos htext]
        exact .cons (hquestion m (by simp) htext _ hm) (hrest _ hms)
      · rename_i htext
        obtain ⟨hm, hms⟩ := List.forall₂_cons.mp h
        rw [if_neg htext]
        exact .cons (hnumber m (by simp) htext hm) (hrest _ hms)

/-- The base statement has placeholders `?` and `$k`; the `$k` read the `k`-th
argument, the `?` read the arguments in turn. -/
structure MixedBase (D : Display) (baseSql : List Char) (q : Query) : Prop where
  texts : ∀ m ∈ marks (D.query q), m.text = "?" ∨
    ∃ k ∈ placeholderNumbers baseSql, 1 ≤ k ∧ k < usizeBound ∧ m.text = "$" ++ toString k
  reads : List.Forall₂ (fun m place => ∃ i, place = some i ∧ m.origin = .argument i)
    (marks (D.query q)) (readings (fun k => some (k - 1)) 0 (marks (D.query q)))

def isBaseMark (m : Mark) : Bool :=
  match m.origin with
  | .argument _ => true
  | .pushed _ => false

/-- A placeholder of the base statement reads argument `p`, but none of the
statement that is printed does. -/
def Dropped (printed base : List Mark) (p : ℕ) : Prop :=
  (∃ m ∈ base, m.origin = .argument p) ∧ ¬∃ m ∈ printed, m.origin = .argument p

instance (printed base : List Mark) (p : ℕ) : Decidable (Dropped printed base p) :=
  inferInstanceAs (Decidable (_ ∧ _))

/-- Of the arguments exactly those are removed whose placeholders are all
dropped, and each placeholder of the base statement that is still printed reads
from the bind values the argument it read before; a `$k` reads where the
numbering pass looks for it. The generated placeholders are left aside. -/
structure BindsTrimmed (base printed : List Mark)
    (initialBinds trimmed bindValues : List FilterValue) (numbers : List ℕ) : Prop where
  removed : trimmed =
    (survivors (fun p => ¬Dropped printed base p) initialBinds.length).filterMap (initialBinds[·]?)
  denotes : List.Forall₂ (fun m place => ∀ p < initialBinds.length, m.origin = .argument p →
      place.bind (bindValues[·]?) = initialBinds[p]?)
    (printed.filter isBaseMark)
    (readings (bindPosition numbers (maxPlaceholder numbers)) 0 (printed.filter isBaseMark))

/-! ### The condition -/

/-- The numbers of the base text that are not taken for those of LIMIT. -/
def usedNumbers (baseSql : List Char) (q : Query) : List ℕ :=
  (collectNumberedPlaceholders baseSql).filter (· ∉ limitNumbers q)

section Condition

variable (D : Display) (params : Params) (q : Query)

/-- The argument of place `p` is read by a placeholder of LIMIT or of a
replaced ORDER BY and by no other one. -/
def Unneeded (p : ℕ) : Prop := Dropped (keptMarks D params q) (marks (D.query q)) p

instance (p : ℕ) : Decidable (Unneeded D params q p) := inferInstanceAs (Decidable (Dropped _ _ _))

/-- Of `n` arguments those that LIMIT gives up are the unneeded ones, and every
placeholder that is kept has as many numbers or `?` ahead of it as arguments
are kept ahead of its own. -/
structure GivesUpUnneeded (baseSql : List Char) (n : ℕ) : Prop where
  removed : ∀ p < n, Trimmed q n p ↔ Unneeded D params q p
  ranks : List.Forall₂ (fun m rank => ∀ p < n, m.origin = .argument p →
      rank = some (survivors (fun p => ¬Unneeded D params q p) p).length)
    (keptMarks D params q)
    (readings (fun k => some ((usedNumbers baseSql q).idxOf k)) 0 (keptMarks D params q))

end Condition

/-! ### The printed statement -/

section Printed

variable {cfg : Config} {D : Display} {params : Params} {q : Query}

theorem Inserted.filter_isBaseMark {R : List Mark → List Mark → Prop} {e : SetExpr}
    {ms printed : List Mark} (h : Inserted D R e ms printed)
    (hR : ∀ ms shown, R ms shown → ∀ m, m ∈ shown ↔ m ∈ ms)
    (hbase : ∀ m ∈ marks (D.setExpr e), isBaseMark m = true) (hms : ∀ m ∈ ms, isBaseMark m = false) :
    printed.filter isBaseMark = marks (D.setExpr e) := by
  induction h with
  | select s ms shown h =>
      rw [marks_setExpr_select] at hbase ⊢
      have hshown : shown.filter isBaseMark = [] := by
        rw [List.filter_eq_nil_iff]
        intro m hm
        simp [hms m ((hR ms shown h m).mp hm)]
      rw [List.filter_append, List.filter_append, hshown, List.append_nil,
        List.filter_eq_self.mpr fun m hm => hbase m (List.mem_append_left _ hm),
        List.filter_eq_self.mpr fun m hm => hbase m (List.mem_append_right _ hm)]
  | setOperation op quantifier hl hr ihl ihr =>
      rw [marks_setExpr_setOperation] at hbase ⊢
      rw [List.filter_append, ihl (fun m hm => hbase m (List.mem_append_left _ hm))
          fun m hm => hms m (List.mem_append_left _ hm),
        ihr (fun m hm => hbase m (List.mem_append_right _ hm))
          fun m hm => hms m (List.mem_append_right _ hm)]
  | query ctes order limit fetch rest h ih =>
      rw [marks_setExpr_query, marks_query] at hbase ⊢
      rw [List.filter_append, List.filter_append,
        ih (fun m hm => hbase m (by simp [hm])) hms,
        List.filter_eq_self.mpr fun m hm => hbase m (by simp [hm]),
        List.filter_eq_self.mpr fun m hm => hbase m (List.mem_append_right _ hm)]
  | values rows => exact List.filter_eq_self.mpr hbase
  | table name => exact List.filter_eq_self.mpr hbase
  | other form args => exact List.filter_eq_self.mpr hbase

/-- The base placeholders of the printed statement are the kept ones, in
order. -/
theorem Printed.filter_isBaseMark {ms printed : List Mark} (h : Printed D cfg params q ms printed)
    (hbase : ∀ m ∈ marks (D.query q), isBaseMark m = true) (hms : ∀ m ∈ ms, isBaseMark m = false) :
    printed.filter isBaseMark = keptMarks D params q := by
  obtain ⟨body, hbody, rfl⟩ := h
  have hkept : ∀ m ∈ keptMarks D params q, isBaseMark m = true := fun m hm =>
    hbase m (keptMarks_subset D params q hm)
  have hbodyBase : body.filter isBaseMark = marks (D.setExpr q.body) :=
    hbody.filter_isBaseMark (fun _ _ harranged => harranged.mem_iff)
      (fun m hm => hbase m (by rw [marks_query]; simp [hm])) hms
  rw [List.filter_append, List.filter_append, hbodyBase, keptMarks,
    List.filter_eq_self.mpr fun m hm => hkept m (by simp [keptMarks, hm]),
    List.filter_eq_self.mpr fun m hm => hkept m (List.mem_append_right _ hm)]

theorem isBaseMark_issued {start : UInt8} {vs : List FilterValue} {m : Mark}
    (hm : m ∈ issued cfg start vs) : isBaseMark m = false := by
  have horigin : m.origin ∈ (issued cfg start vs).map Mark.origin := List.mem_map_of_mem hm
  rw [map_origin_issued] at horigin
  obtain ⟨v, -, hv⟩ := List.mem_map.mp horigin
  rw [isBaseMark, ← hv]

/-- The printed statement has an argument's placeholder exactly when it is
kept. -/
theorem Printed.dropped_iff {start : UInt8} {vs : List FilterValue} {printed : List Mark}
    (h : Printed D cfg params q (issued cfg start vs) printed) (p : ℕ) :
    Dropped printed (marks (D.query q)) p ↔ Unneeded D params q p := by
  have hread : (∃ m ∈ printed, m.origin = .argument p) ↔
      ∃ m ∈ keptMarks D params q, m.origin = .argument p := by
    constructor
    · rintro ⟨m, hm, horigin⟩
      rcases (h.mem_iff D m).mp hm with hkept | hissued
      · exact ⟨m, hkept, horigin⟩
      · have hbase := isBaseMark_issued hissued
        simp [isBaseMark, horigin] at hbase
    · rintro ⟨m, hm, horigin⟩
      exact ⟨m, (h.mem_iff D m).mpr (Or.inl hm), horigin⟩
  rw [Dropped, hread]
  rfl

end Printed

/-! ### The exact condition -/

section Exact

variable {cfg : Config} {D : Display} {baseSql : List Char} {q : Query} {params : Params} {n : ℕ}

theorem MixedBase.isBaseMark (h : MixedBase D baseSql q) :
    ∀ m ∈ marks (D.query q), isBaseMark m = true := by
  intro m hm
  obtain ⟨place, i, -, horigin⟩ := exists_of_forall₂ h.reads hm
  rw [Dynamic.isBaseMark, horigin]

/-- A placeholder with a number reads the argument of this number. -/
theorem MixedBase.origin_of_number (h : MixedBase D baseSql q) :
    ∀ m ∈ marks (D.query q), m.text ≠ "?" →
      ∃ k ∈ placeholderNumbers baseSql, markNumber m = k ∧ m.origin = .argument (k - 1) := by
  have hnumber : ∀ m ∈ marks (D.query q), m.text ≠ "?" →
      ∃ k ∈ placeholderNumbers baseSql, markNumber m = k := by
    intro m hm htext
    obtain hquestion | ⟨k, hk, -, hlt, htext⟩ := h.texts m hm
    · exact absurd hquestion htext
    · exact ⟨k, hk, by rw [markNumber, htext, placeholderNumbers_dollar hlt]; rfl⟩
  have hreads : ∀ {ms : List Mark} {asked : ℕ},
      List.Forall₂ (fun m place => ∃ i, place = some i ∧ m.origin = .argument i) ms
        (readings (fun k => some (k - 1)) asked ms) →
      ∀ m ∈ ms, m.text ≠ "?" → m.origin = .argument (markNumber m - 1) := by
    intro ms
    induction ms with
    | nil => simp
    | cons m ms ih =>
        intro asked hms m' hm' htext
        rw [readings] at hms
        rcases List.mem_cons.mp hm' with rfl | hm'
        · rw [if_neg htext] at hms
          obtain ⟨i, hi, horigin⟩ := (List.forall₂_cons.mp hms).1
          rw [horigin, ← Option.some.inj hi]
        · split at hms
          · exact ih (List.forall₂_cons.mp hms).2 m' hm' htext
          · exact ih (List.forall₂_cons.mp hms).2 m' hm' htext
  intro m hm htext
  obtain ⟨k, hk, hmark⟩ := hnumber m hm htext
  exact ⟨k, hk, hmark, hmark ▸ hreads h.reads m hm htext⟩

theorem baseBinds_fst (hreplaces : replacesLimit params = true) (initialBinds : List FilterValue) :
    (baseBinds baseSql (.query q) params initialBinds).1 =
      (trimLimitOffsetPlaceholderBinds q initialBinds).1 := by
  rw [replacesLimit] at hreplaces
  simp only [baseBinds, hreplaces, if_true]

theorem baseBinds_snd (hreplaces : replacesLimit params = true) (initialBinds : List FilterValue) :
    (baseBinds baseSql (.query q) params initialBinds).2 = usedNumbers baseSql q := by
  rw [replacesLimit] at hreplaces
  simp only [baseBinds, hreplaces, if_true, usedNumbers]
  exact List.filter_congr fun k _ => by simp [mem_trim_snd]

/-- The values left over are those of the places that are not trimmed. -/
theorem map_trimmed (q : Query) (initialBinds : List FilterValue) :
    (trimLimitOffsetPlaceholderBinds q initialBinds).1.map some =
      (survivors (fun p => ¬Trimmed q initialBinds.length p) initialBinds.length).map
        (initialBinds[·]?) := by
  have hall : initialBinds.map some = (List.range initialBinds.length).map (initialBinds[·]?) := by
    apply List.ext_getElem?
    intro i
    by_cases hi : i < initialBinds.length
    · simp [hi]
    · simp [hi]
  rw [← trim_map, hall, trim_map, trim_range]

theorem bindPosition_of_mem {numbers : List ℕ} {maxExisting k : ℕ} (hk : k ∈ numbers) :
    bindPosition numbers maxExisting k = some (numbers.idxOf k) := by
  rw [bindPosition, if_pos hk]

/-- A kept number is one of the used ones, if LIMIT gives up unneeded arguments
only. -/
theorem mem_usedNumbers (hremoved : ∀ p < n, Trimmed q n p ↔ Unneeded D params q p) {m : Mark}
    (hm : m ∈ keptMarks D params q) {k : ℕ} (hk : k ∈ placeholderNumbers baseSql)
    (horigin : m.origin = .argument (k - 1)) (hlt : k - 1 < n) : k ∈ usedNumbers baseSql q := by
  rw [usedNumbers, List.mem_filter]
  refine ⟨mem_collect.mpr hk, ?_⟩
  simp only [decide_eq_true_eq]
  intro hlimit
  exact ((hremoved _ hlt).mp (trimmed_of_mem hlimit n)).2 ⟨m, hm, horigin⟩

/-- A place that is not trimmed is found behind the others. -/
theorem getElem?_trimmed {initialBinds : List FilterValue} {i p : ℕ}
    (h : (survivors (fun p => ¬Trimmed q initialBinds.length p) initialBinds.length)[i]? = some p) :
    (trimLimitOffsetPlaceholderBinds q initialBinds).1[i]? = initialBinds[p]? := by
  have hat := congrArg (·[i]?) (map_trimmed q initialBinds)
  simp only [List.getElem?_map, h, Option.map_some, Option.map_eq_some_iff] at hat
  obtain ⟨v, hv, hread⟩ := hat
  rw [hv, hread]

theorem length_survivors_unneeded (hremoved : ∀ p < n, Trimmed q n p ↔ Unneeded D params q p)
    {p : ℕ} (hp : p < n) : (survivors (fun p => ¬Trimmed q n p) p).length =
      (survivors (fun p => ¬Unneeded D params q p) p).length :=
  congrArg List.length (survivors_congr fun p' hp' => not_congr (hremoved p' (by omega)))

theorem map_some_filterMap {α β : Type} {f : α → Option β} {l : List α}
    (h : ∀ a ∈ l, (f a).isSome = true) : (l.filterMap f).map some = l.map f := by
  induction l with
  | nil => rfl
  | cons a l ih =>
      obtain ⟨b, hb⟩ := Option.isSome_iff_exists.mp (h a (by simp))
      simp [hb, ih fun a ha => h a (by simp [ha])]

theorem trimmed_eq_iff {P : ℕ → Prop} [DecidablePred P] (initialBinds : List FilterValue) :
    (trimLimitOffsetPlaceholderBinds q initialBinds).1 =
        (survivors P initialBinds.length).filterMap (initialBinds[·]?) ↔
      (survivors (fun p => ¬Trimmed q initialBinds.length p) initialBinds.length).map
          (initialBinds[·]?) = (survivors P initialBinds.length).map (initialBinds[·]?) := by
  have hsome : ∀ p ∈ survivors P initialBinds.length, (initialBinds[p]?).isSome = true := by
    intro p hp
    simp [(mem_survivors.mp hp).1]
  rw [← map_trimmed, ← map_some_filterMap hsome]
  exact (List.map_injective_iff.mpr fun a b => Option.some.inj).eq_iff.symm

/-- Arguments that tell their places apart, and from generated values, show
which place a bind value comes from. -/
theorem place_of_read {initialBinds generated : List FilterValue}
    (htelling : Set.InjOn (meaning initialBinds)
      {o | o ∈ bindOrigins initialBinds.length generated}) {i p : ℕ} (hp : p < initialBinds.length)
    (h : ((trimLimitOffsetPlaceholderBinds q initialBinds).1 ++ generated)[i]? = initialBinds[p]?) :
    (survivors (fun p => ¬Trimmed q initialBinds.length p) initialBinds.length)[i]? = some p := by
  have hmember : ∀ p < initialBinds.length,
      Origin.argument p ∈ bindOrigins initialBinds.length generated := fun p hp =>
    origin_questionMark_mem hp generated
  have hat := congrArg (·[i]?) (map_trimmed q initialBinds)
  simp only [List.getElem?_map] at hat
  by_cases hi : i < (trimLimitOffsetPlaceholderBinds q initialBinds).1.length
  · rw [List.getElem?_append_left hi] at h
    rw [h, List.getElem?_eq_getElem hp, Option.map_some, eq_comm, Option.map_eq_some_iff] at hat
    obtain ⟨p', hp', hread⟩ := hat
    have hlt := (mem_survivors.mp (List.mem_of_getElem? hp')).1
    have hsame : Origin.argument p' = .argument p := htelling (hmember p' hlt) (hmember p hp)
      (by rw [meaning, meaning, hread, List.getElem?_eq_getElem hp])
    rw [hp', Origin.argument.inj hsame]
  · rw [List.getElem?_append_right (by omega), List.getElem?_eq_getElem hp] at h
    have hpushed : Origin.pushed initialBinds[p] ∈ bindOrigins initialBinds.length generated :=
      List.mem_append_right _ (List.mem_map_of_mem (List.mem_of_getElem? h))
    have hsame := htelling (hmember p hp) hpushed
      (by rw [meaning, meaning, List.getElem?_eq_getElem hp])
    cases hsame

/-- Whatever the `n` arguments are, the statement is the same, and the
generated values stand behind those that are left over. -/
theorem exists_trimmed_statement {initialBinds₀ bindValues₀ : List FilterValue} {st₀ : Statement}
    {maxExisting : ℕ} (hlength₀ : initialBinds₀.length = n)
    (h : dynamicStatement cfg (.query q) params
      (trimLimitOffsetPlaceholderBinds q initialBinds₀).1 maxExisting = .ok (st₀, bindValues₀)) :
    ∃ q' start generated,
      Printed D cfg params q (issued cfg start generated) (marks (D.query q')) ∧
      ∀ initialBinds : List FilterValue, initialBinds.length = n → ∀ st bindValues,
        dynamicStatement cfg (.query q) params
            (trimLimitOffsetPlaceholderBinds q initialBinds).1 maxExisting = .ok (st, bindValues) ↔
          st = .query q' ∧
            bindValues = (trimLimitOffsetPlaceholderBinds q initialBinds).1 ++ generated := by
  obtain ⟨hrun, q', rfl, hprinted⟩ := dynamicStatement_spec D h
  refine ⟨q', _, _, hprinted, fun initialBinds hlength st bindValues => ?_⟩
  have hsame : (trimLimitOffsetPlaceholderBinds q initialBinds).1.length =
      (trimLimitOffsetPlaceholderBinds q initialBinds₀).1.length := by
    have hleft := congrArg List.length (map_trimmed q initialBinds)
    have hleft₀ := congrArg List.length (map_trimmed q initialBinds₀)
    rw [List.length_map, List.length_map] at hleft hleft₀
    rw [hleft, hleft₀, hlength, hlength₀]
  rw [hrun _ hsame]
  simp [eq_comm]

/-- A kept argument stands behind the kept ones ahead of it. -/
theorem read_kept {initialBinds generated : List FilterValue}
    (hremoved : ∀ p < initialBinds.length,
      Trimmed q initialBinds.length p ↔ Unneeded D params q p) {m : Mark}
    (hm : m ∈ keptMarks D params q) {p : ℕ} (hp : p < initialBinds.length)
    (horigin : m.origin = .argument p) :
    ((trimLimitOffsetPlaceholderBinds q initialBinds).1 ++ generated)[(survivors
      (fun p => ¬Unneeded D params q p) p).length]? = initialBinds[p]? := by
  have hkept : ¬Trimmed q initialBinds.length p := fun htrimmed =>
    ((hremoved p hp).mp htrimmed).2 ⟨m, hm, horigin⟩
  have hfound := getElem?_survivors (P := fun p => ¬Trimmed q initialBinds.length p) hp hkept
  rw [length_survivors_unneeded hremoved hp] at hfound
  have hvalue := getElem?_trimmed hfound
  rw [List.getElem?_append_left, hvalue]
  by_contra hge
  rw [List.getElem?_eq_none (by omega), List.getElem?_eq_getElem hp] at hvalue
  cases hvalue

/-- With arguments that tell their places apart, the places that are trimmed
are known by the values that are left over. -/
theorem trimmed_iff_of_removed {P : ℕ → Prop} [DecidablePred P]
    {initialBinds generated : List FilterValue}
    (htelling : Set.InjOn (meaning initialBinds)
      {o | o ∈ bindOrigins initialBinds.length generated})
    (hremoved : (trimLimitOffsetPlaceholderBinds q initialBinds).1 =
      (survivors (fun p => ¬P p) initialBinds.length).filterMap (initialBinds[·]?)) :
    ∀ p < initialBinds.length, Trimmed q initialBinds.length p ↔ P p := by
  have hinj : Set.InjOn (initialBinds[·]?) {p : ℕ | p < initialBinds.length} := by
    intro p hp p' hp' hread
    exact Origin.argument.inj (htelling (origin_questionMark_mem hp generated)
      (origin_questionMark_mem hp' generated) hread)
  have hplaces := eq_of_map_eq hinj (fun p hp => (mem_survivors.mp hp).1)
    (fun p hp => (mem_survivors.mp hp).1) ((trimmed_eq_iff initialBinds).mp hremoved)
  intro p hp
  rw [← not_iff_not]
  exact survivors_eq_iff.mp hplaces p hp

/-- The values removed with a replaced LIMIT/OFFSET are the unneeded ones, and
the other placeholders keep their arguments, whatever the arguments are,
exactly when the places that LIMIT gives up are the unneeded ones and each kept
placeholder stands behind as many numbers or `?` as kept arguments. -/
theorem binds_trimmed_iff (hbase : MixedBase D baseSql q)
    (hreplaces : replacesLimit params = true)
    (hsucceeds : ∃ initialBinds : List FilterValue, initialBinds.length = n ∧
      ∃ built, dynamicStatement cfg (.query q) params
        (baseBinds baseSql (.query q) params initialBinds).1
        (maxPlaceholder (baseBinds baseSql (.query q) params initialBinds).2) = .ok built) :
    (∀ initialBinds : List FilterValue, initialBinds.length = n → ∀ st bindValues,
      dynamicStatement cfg (.query q) params
          (baseBinds baseSql (.query q) params initialBinds).1
          (maxPlaceholder (baseBinds baseSql (.query q) params initialBinds).2) =
        .ok (st, bindValues) →
      BindsTrimmed (marks (D.query q)) (marks (D.statement st)) initialBinds
        (baseBinds baseSql (.query q) params initialBinds).1 bindValues
        (baseBinds baseSql (.query q) params initialBinds).2) ↔
      GivesUpUnneeded D params q baseSql n := by
  obtain ⟨initialBinds₀, hlength₀, ⟨st, bindValues₀⟩, hstatement⟩ := hsucceeds
  simp only [baseBinds_fst hreplaces, baseBinds_snd hreplaces] at hstatement ⊢
  obtain ⟨q', start, generated, hprinted, hall⟩ :=
    exists_trimmed_statement (D := D) hlength₀ hstatement
  have hfilter : (marks (D.query q')).filter isBaseMark = keptMarks D params q :=
    hprinted.filter_isBaseMark hbase.isBaseMark fun m hm => isBaseMark_issued hm
  have hdropped := hprinted.dropped_iff
  have hnumber : ∀ m ∈ keptMarks D params q, m.text ≠ "?" →
      ∃ k ∈ placeholderNumbers baseSql, markNumber m = k ∧ m.origin = .argument (k - 1) :=
    fun m hm => hbase.origin_of_number m (keptMarks_subset D params q hm)
  constructor
  · intro h
    obtain ⟨initialBinds, rfl, htelling⟩ := exists_telling n generated
    obtain ⟨hgone, hdenotes⟩ := h initialBinds rfl _ _ ((hall initialBinds rfl _ _).mpr ⟨rfl, rfl⟩)
    have hremoved : ∀ p < initialBinds.length,
        Trimmed q initialBinds.length p ↔ Unneeded D params q p := fun p hp =>
      (trimmed_iff_of_removed htelling hgone p hp).trans (hdropped p)
    have hrank : ∀ {i p : ℕ}, p < initialBinds.length →
        ((trimLimitOffsetPlaceholderBinds q initialBinds).1 ++ generated)[i]? = initialBinds[p]? →
          i = (survivors (fun p => ¬Unneeded D params q p) p).length := by
      intro i p hp hread
      rw [eq_of_getElem?_survivors (place_of_read htelling hp hread),
        length_survivors_unneeded hremoved hp]
    refine ⟨hremoved, ?_⟩
    rw [show D.statement (.query q') = D.query q' from rfl, hfilter] at hdenotes
    refine readings_imp (fun m hm _ i hread p hp horigin => ?_)
      (fun m hm htext hread p hp horigin => ?_) hdenotes
    · exact congrArg some (hrank hp (hread p hp horigin))
    · obtain ⟨k, hk, hmark, hargument⟩ := hnumber m hm htext
      obtain rfl : p = k - 1 := Origin.argument.inj (horigin.symm.trans hargument)
      have hpicked := hread _ hp horigin
      rw [hmark, bindPosition_of_mem (mem_usedNumbers hremoved hm hk horigin hp)] at hpicked
      rw [hmark]
      exact congrArg some (hrank hp hpicked)
  · rintro ⟨hremoved, hranks⟩ initialBinds rfl st bindValues hok
    obtain ⟨rfl, rfl⟩ := (hall initialBinds rfl _ _).mp hok
    have hplaces : survivors (fun p => ¬Trimmed q initialBinds.length p) initialBinds.length =
        survivors (fun p => ¬Dropped (marks (D.query q')) (marks (D.query q)) p)
          initialBinds.length :=
      survivors_congr fun p hp => not_congr ((hremoved p hp).trans (hdropped p).symm)
    refine ⟨(trimmed_eq_iff initialBinds).mpr (congrArg _ hplaces), ?_⟩
    rw [show D.statement (.query q') = D.query q' from rfl, hfilter]
    refine readings_imp (fun m hm _ i hrank p hp horigin => ?_)
      (fun m hm htext hrank p hp horigin => ?_) hranks
    · obtain rfl := Option.some.inj (hrank p hp horigin)
      exact read_kept hremoved hm hp horigin
    · obtain ⟨k, hk, hmark, hargument⟩ := hnumber m hm htext
      obtain rfl : p = k - 1 := Origin.argument.inj (horigin.symm.trans hargument)
      have hplace := Option.some.inj (hrank _ hp horigin)
      rw [hmark] at hplace ⊢
      rw [bindPosition_of_mem (mem_usedNumbers hremoved hm hk horigin hp), hplace]
      exact read_kept hremoved hm hp horigin

end Exact

/-! ### Statements with `?` only -/

section Questions

open KeptParts

variable {D : Display} {baseSql : List Char} {q : Query} {params : Params} {n : ℕ}

/-- The placeholders of a query and whether a request that sets LIMIT keeps
them. -/
def limitParts (D : Display) (params : Params) (q : Query) : List (Bool × List Mark) :=
  [(true, withMarks D q.with ++ marks (D.setExpr q.body)),
    (!replacesOrderBy params, marks (D.orderBy q.orderBy)),
    (false, marks (D.limitClause q.limitClause)),
    (true, marks (D.fetch q.fetch) ++ marks (D.queryRest q.rest))]

theorem whole_limitParts : whole (limitParts D params q) = marks (D.query q) := by
  simp [limitParts, marks_query]

theorem kept_limitParts (hreplaces : replacesLimit params = true) :
    kept (limitParts D params q) = keptMarks D params q := by
  cases horder : replacesOrderBy params <;>
    simp [limitParts, keptMarks, tailMarks, hreplaces, horder]

/-- A part of a list without repetitions is found by its elements. -/
theorem filter_mem_of_sublist {α : Type} [DecidableEq α] {l l' : List α} (h : l'.Sublist l)
    (hnodup : l.Nodup) : l.filter (· ∈ l') = l' := by
  induction h with
  | slnil => rfl
  | @cons l' l a h ih =>
      obtain ⟨ha, hl⟩ := List.nodup_cons.mp hnodup
      rw [List.filter_cons_of_neg (by simpa using fun hmem => ha (h.subset hmem)), ih hl]
  | @cons_cons l' l a h ih =>
      obtain ⟨ha, hl⟩ := List.nodup_cons.mp hnodup
      rw [List.filter_cons_of_pos (by simp), List.cons.injEq]
      refine ⟨rfl, (List.filter_congr fun b hb => ?_).trans (ih hl)⟩
      have hne : b ≠ a := fun hba => ha (hba ▸ hb)
      simp [hne]

theorem mem_map_questionMark {places : List ℕ} {p : ℕ} :
    (∃ m ∈ places.map questionMark, m.origin = .argument p) ↔ p ∈ places := by
  simp [questionMark]

/-- The kept `?` are those of the needed arguments. -/
theorem keptMarks_questions (hprinted : marks (D.query q) = (List.range n).map questionMark)
    (hreplaces : replacesLimit params = true) :
    keptMarks D params q = (survivors (fun p => ¬Unneeded D params q p) n).map questionMark := by
  have hsub : (keptMarks D params q).Sublist ((List.range n).map questionMark) := by
    rw [← kept_limitParts hreplaces, ← hprinted, ← @whole_limitParts D q params]
    exact kept_sublist _
  obtain ⟨places, hplaces, hkept⟩ := List.sublist_map_iff.mp hsub
  have hneeded : ∀ p < n, p ∈ places ↔ ¬Unneeded D params q p := by
    intro p hp
    have hread : ∃ m ∈ marks (D.query q), m.origin = .argument p := by
      rw [hprinted]
      exact mem_map_questionMark.mpr (List.mem_range.mpr hp)
    have hplace : (∃ m ∈ keptMarks D params q, m.origin = .argument p) ↔ p ∈ places := by
      rw [hkept]
      exact mem_map_questionMark
    rw [Unneeded, Dropped, hplace, not_and_not_right]
    exact ⟨fun h _ => h, fun h => h hread⟩
  calc
    keptMarks D params q = places.map questionMark := hkept
    _ = ((List.range n).filter (· ∈ places)).map questionMark := by
        rw [filter_mem_of_sublist hplaces List.nodup_range]
    _ = (survivors (fun p => ¬Unneeded D params q p) n).map questionMark :=
        congrArg _ (survivors_congr hneeded)

theorem readings_questions (position : ℕ → Option ℕ) (places : List ℕ) (asked : ℕ) :
    readings position asked (places.map questionMark) =
      (List.range places.length).map fun i => some (asked + i) := by
  induction places generalizing asked with
  | nil => rfl
  | cons p places ih =>
      have htext : (questionMark p).text = "?" := rfl
      rw [List.map_cons, readings, if_pos htext, ih, List.length_cons, List.range_succ_eq_map]
      simp [Function.comp_def, Nat.add_assoc, Nat.add_comm 1]

/-- In a statement with `?` only, each LIMIT or OFFSET placeholder an operand
of its own, LIMIT gives up the unneeded arguments exactly when no `?` of a
replaced ORDER BY is dropped and no `?` stands behind those of LIMIT. -/
theorem givesUpUnneeded_questions_iff
    (hprinted : marks (D.query q) = (List.range n).map questionMark)
    (hlimit : (limitPlaceholders q).length = (marks (D.limitClause q.limitClause)).length)
    (hreplaces : replacesLimit params = true) :
    GivesUpUnneeded D params q baseSql n ↔
      (replacesOrderBy params = true → marks (D.orderBy q.orderBy) = []) ∧
        (marks (D.limitClause q.limitClause) = [] ∨
          marks (D.fetch q.fetch) ++ marks (D.queryRest q.rest) = []) := by
  have hkept := keptMarks_questions hprinted hreplaces
  have hnumbers : limitNumbers q = [] := by
    cases hclause : q.limitClause with
    | none => simp [limitNumbers, limitPlaceholders, hclause, List.reduceOption]
    | some clause =>
        simp only [limitNumbers, limitPlaceholders, hclause, Option.toList_some,
          List.flatMap_singleton]
        refine no_numbers_of_questions D fun m hm => ?_
        have hmem : m ∈ marks (D.query q) := by simp [marks_query, hclause, hm]
        rw [hprinted] at hmem
        obtain ⟨i, -, rfl⟩ := List.mem_map.mp hmem
        rfl
  have hnodup : (whole (limitParts D params q)).Nodup := by
    rw [whole_limitParts, hprinted]
    exact List.nodup_range.map fun i j h => by simpa [questionMark] using h
  -- what LIMIT leaves over are the first placeholders, and those of ORDER BY if they are dropped
  have hmore : n - (limitPlaceholders q).length = (kept (limitParts D params q)).length +
      (if replacesOrderBy params then marks (D.orderBy q.orderBy) else []).length := by
    have hlength := congrArg List.length hprinted
    rw [List.length_map, List.length_range, marks_query] at hlength
    rw [kept_limitParts hreplaces, keptMarks, tailMarks, hreplaces, hlimit]
    cases replacesOrderBy params <;>
      simp only [List.length_append, List.length_nil, if_true, Bool.false_eq_true, if_false]
        at hlength ⊢ <;> omega
  have hremoved : (∀ p < n, Trimmed q n p ↔ Unneeded D params q p) ↔
      kept (limitParts D params q) =
        (whole (limitParts D params q)).take ((kept (limitParts D params q)).length +
          (if replacesOrderBy params then marks (D.orderBy q.orderBy) else []).length) := by
    have htrimmed : ∀ p < n, ¬Trimmed q n p ↔ p < n - (limitPlaceholders q).length := by
      intro p hp
      rw [Trimmed, hnumbers, RemovedAt]
      omega
    have hinjective : Function.Injective (List.map questionMark) :=
      List.map_injective_iff.mpr fun i j h => by simpa [questionMark] using h
    rw [← hmore, kept_limitParts hreplaces, whole_limitParts, hprinted, hkept, ← List.map_take,
      hinjective.eq_iff, Survivors.take_range, survivors_eq_iff]
    refine forall₂_congr fun p hp => ?_
    rw [← htrimmed p hp, not_iff_not]
    exact ⟨Iff.symm, Iff.symm⟩
  have hranks : List.Forall₂ (fun m rank => ∀ p < n, m.origin = .argument p →
      rank = some (survivors (fun p => ¬Unneeded D params q p) p).length)
      (keptMarks D params q)
      (readings (fun k => some ((usedNumbers baseSql q).idxOf k)) 0 (keptMarks D params q)) := by
    rw [hkept, readings_questions, List.forall₂_map_left_iff, List.forall₂_map_right_iff,
      List.forall₂_iff_get]
    refine ⟨by simp, fun i hi hi' p hp horigin => ?_⟩
    have hplace : (survivors (fun p => ¬Unneeded D params q p) n)[i]? = some p := by
      rw [List.getElem?_eq_getElem hi]
      exact congrArg some (Origin.argument.inj horigin)
    rw [← eq_of_getElem?_survivors hplace]
    simp
  rw [show GivesUpUnneeded D params q baseSql n ↔ ∀ p < n, Trimmed q n p ↔ Unneeded D params q p from
    ⟨fun h => h.removed, fun h => ⟨h, hranks⟩⟩, hremoved, kept_eq_take_iff hnodup]
  cases horder : replacesOrderBy params
  · simp [limitParts, horder, InPlace]
  · simp [limitParts, horder, InPlace]
    tauto

end Questions

/-! ### Examples -/

namespace LimitExample

open Reference

def argument (k : ℕ) : Expr := valueExpr (.placeholder ("$" ++ toString k) (.argument (k - 1)))

def users (selection : Expr) : SetExpr :=
  .select (simpleSelect [.wildcard] "users" (some selection))

/-- `SELECT * FROM users WHERE age > $1 AND city = $3 LIMIT $2 OFFSET $2` -/
def pageOfCity : Query :=
  { simpleQuery (users (.binaryOp (gt "age" (argument 1)) .and
      (bin .eq (idExpr "city") (argument 3)))) with
    limitClause := some (.limitOffset (some (argument 2)) (some ⟨argument 2, .none⟩) []) }

/-- `SELECT * FROM users WHERE age > $1 LIMIT $2 OFFSET $3` -/
def pageOfAdults : Query :=
  { simpleQuery (users (gt "age" (argument 1))) with
    limitClause := some (.limitOffset (some (argument 2)) (some ⟨argument 3, .none⟩) []) }

def tenRows : Params := { Params.default with limit := some 10 }

theorem mixedBase_pageOfAdults :
    MixedBase Display.reference (text pageOfAdults) pageOfAdults := by
  have hmarks : marks (Display.reference.query pageOfAdults) =
      [⟨"$1", .argument 0⟩, ⟨"$2", .argument 1⟩, ⟨"$3", .argument 2⟩] := by decide
  have hnumbers : placeholderNumbers (text pageOfAdults) = [1, 2, 3] := by decide +kernel
  constructor
  · intro m hm
    rw [hmarks] at hm
    rw [hnumbers]
    simp only [List.mem_cons, List.not_mem_nil, or_false] at hm
    rcases hm with rfl | rfl | rfl
    · exact .inr ⟨1, by decide⟩
    · exact .inr ⟨2, by decide⟩
    · exact .inr ⟨3, by decide⟩
  · rw [hmarks]
    exact .cons ⟨0, by decide⟩ (.cons ⟨1, by decide⟩ (.cons ⟨2, by decide⟩ .nil))

end LimitExample

open LimitExample Example Reference

/-- A number for both LIMIT and OFFSET: the city is removed with it, and its
placeholder finds no value. -/
theorem city_removed_with_limit :
    ∃ st bindValues,
      baseBinds (text pageOfCity) (.query pageOfCity) tenRows [.int 18, .int 5, .string "Bonn"] =
        ([.int 18], [1, 3]) ∧
      dynamicStatement (build .postgres) (.query pageOfCity) tenRows [.int 18] 3 =
        .ok (st, bindValues) ∧
      buildDynamicSql (build .postgres) Display.reference (parserOf pageOfCity) (text pageOfCity)
          tenRows [.int 18, .int 5, .string "Bonn"] =
        .ok ⟨"SELECT * FROM users WHERE age > $1 AND city = $2 LIMIT 10".toList, [.int 18]⟩ ∧
      ¬BindsTrimmed (marks (Display.reference.query pageOfCity))
        (marks (Display.reference.statement st)) [.int 18, .int 5, .string "Bonn"] [.int 18]
        bindValues [1, 3] := by
  refine ⟨_, _, by decide +kernel, rfl, by rfl, fun h => ?_⟩
  have hremoved := h.removed
  revert hremoved
  decide

/-- With a number each for LIMIT and OFFSET, behind all others, the age is
kept. -/
theorem age_kept :
    ∃ st bindValues,
      dynamicStatement (build .postgres) (.query pageOfAdults) tenRows
        (baseBinds (text pageOfAdults) (.query pageOfAdults) tenRows [.int 18, .int 5, .int 20]).1
        (maxPlaceholder (baseBinds (text pageOfAdults) (.query pageOfAdults) tenRows
          [.int 18, .int 5, .int 20]).2) = .ok (st, bindValues) ∧
      BindsTrimmed (marks (Display.reference.query pageOfAdults))
        (marks (Display.reference.statement st)) [.int 18, .int 5, .int 20]
        (baseBinds (text pageOfAdults) (.query pageOfAdults) tenRows [.int 18, .int 5, .int 20]).1
        bindValues
        (baseBinds (text pageOfAdults) (.query pageOfAdults) tenRows
          [.int 18, .int 5, .int 20]).2 := by
  have hranks : List.Forall₂ (fun m rank => ∀ p < 3, m.origin = .argument p →
      rank = some (survivors (fun p => ¬Unneeded Display.reference tenRows pageOfAdults p) p).length)
      (keptMarks Display.reference tenRows pageOfAdults)
      (readings (fun k => some ((usedNumbers (text pageOfAdults) pageOfAdults).idxOf k)) 0
        (keptMarks Display.reference tenRows pageOfAdults)) := by
    refine .cons (fun p _ horigin => ?_) .nil
    obtain rfl : p = 0 := Origin.argument.inj horigin.symm
    decide +kernel
  exact ⟨_, _, rfl, (@binds_trimmed_iff (build .postgres) Display.reference (text pageOfAdults)
    pageOfAdults tenRows 3 mixedBase_pageOfAdults rfl ⟨[.int 18, .int 5, .int 20], rfl, _, rfl⟩).mpr
      ⟨by decide, hranks⟩ _ rfl _ _ rfl⟩

end SqlxData.Dynamic
