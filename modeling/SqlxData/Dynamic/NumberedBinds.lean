import SqlxData.Dynamic.BoundText
import SqlxData.Dynamic.PlainWords
import SqlxData.Sqlparser.Reference

/-!
Value preservation for `$n` placeholders: when the placeholders of the built
text are bound to the values they stand for.
-/

namespace SqlxData.Dynamic

open SqlxData.Sqlparser NumberedText

variable {cfg : Config} {D : Display} {parser : Core.Parser} {baseSql : List Char} {q : Query}
  {params : Params} {n : ℕ}

/-- The placeholder `$k`, which reads the `k`-th argument. -/
def argumentMark (k : ℕ) : Mark := ⟨"$" ++ toString k, .argument (k - 1)⟩

/-- The base statement uses placeholders from `$1` to `$n`, none of them in
LIMIT or OFFSET. -/
structure NumberedBase (D : Display) (baseSql : List Char) (q : Query) (n : ℕ) : Prop where
  numbers : ∀ k ∈ placeholderNumbers baseSql, 1 ≤ k ∧ k ≤ n
  printed : ∀ m ∈ marks (D.query q), ∃ k ∈ placeholderNumbers baseSql, m = argumentMark k
  limit : marks (D.limitClause q.limitClause) = []

/-- The `$i` of the built text are the placeholders `ms`, and each of them is
bound to what it stands for. -/
def PlaceholdersBound (initialBinds : List FilterValue) (ms : List Mark) (built : BuiltSql) :
    Prop :=
  List.Forall₂ (fun i m => (1 ≤ i ∧ i ≤ built.bindValues.length) ∧
      built.bindValues[i - 1]? = meaning initialBinds m.origin)
    (placeholderNumbers built.sql) ms

/-! ### Numbers and picked values -/

/-- The number in front of the first generated one. -/
def lastNumber (n : ℕ) (numbers : List ℕ) : ℕ :=
  if maxPlaceholder numbers > 0 then maxPlaceholder numbers else n

theorem NumberedBase.maxPlaceholder_le (h : NumberedBase D baseSql q n) :
    maxPlaceholder (collectNumberedPlaceholders baseSql) ≤ n :=
  Dynamic.maxPlaceholder_le fun k hk => (h.numbers k (mem_collect.mp hk)).2

theorem NumberedBase.length_le (h : NumberedBase D baseSql q n) :
    (collectNumberedPlaceholders baseSql).length ≤ n :=
  length_le_of_nodup (nodup_collect baseSql) fun k hk => h.numbers k (mem_collect.mp hk)

theorem NumberedBase.maxPlaceholder_pos (h : NumberedBase D baseSql q n)
    (hne : collectNumberedPlaceholders baseSql ≠ []) :
    0 < maxPlaceholder (collectNumberedPlaceholders baseSql) := by
  obtain ⟨k, rest, hk⟩ := List.exists_cons_of_ne_nil hne
  have hmem : k ∈ collectNumberedPlaceholders baseSql := by simp [hk]
  have := le_maxPlaceholder hmem
  have := (h.numbers k (mem_collect.mp hmem)).1
  omega

theorem placeholderText_issued (hbackend : cfg.backend ≠ .mysql) {numbers : List ℕ}
    (hmax : maxPlaceholder numbers ≤ n) {j : ℕ} (hj : n + 1 + j ≤ 255) :
    placeholderText cfg (advance cfg (startIndex n (maxPlaceholder numbers) + 1) j) =
      "$" ++ toString (lastNumber n numbers + 1 + j) := by
  have hvalue : (startIndex n (maxPlaceholder numbers) + 1 + UInt8.ofNat j).toNat =
      lastNumber n numbers + 1 + j := by
    rw [startIndex, lastNumber]
    split <;> simp only [UInt8.toNat_add, UInt8.toNat_ofNat', UInt8.toNat_one] <;> omega
  cases h : cfg.backend with
  | mysql => exact (hbackend h).elim
  | sqlite | postgres => simp only [placeholderText, advance, h, hvalue]

variable {initialBinds generated : List FilterValue}

theorem NumberedBase.pickedBind_argument (h : NumberedBase D baseSql q n)
    (hlength : initialBinds.length = n) {k : ℕ} (hk : k ∈ collectNumberedPlaceholders baseSql) :
    pickedBind (initialBinds ++ generated) (collectNumberedPlaceholders baseSql)
        (maxPlaceholder (collectNumberedPlaceholders baseSql)) k =
      initialBinds[(collectNumberedPlaceholders baseSql).idxOf k]? := by
  have hidx := List.idxOf_lt_length_of_mem hk
  have hle := h.length_le
  rw [pickedBind, bindPosition, if_pos hk, Option.bind_some, List.getElem?_append_left (by omega)]

/-- Generated values are looked up behind as many values as the base text has
numbers; only if it has none, behind all arguments. -/
theorem NumberedBase.pickedBind_generated (h : NumberedBase D baseSql q n) (j : ℕ) :
    pickedBind (initialBinds ++ generated) (collectNumberedPlaceholders baseSql)
        (maxPlaceholder (collectNumberedPlaceholders baseSql))
        (lastNumber n (collectNumberedPlaceholders baseSql) + 1 + j) =
      (initialBinds ++ generated)[(if collectNumberedPlaceholders baseSql = [] then n
        else (collectNumberedPlaceholders baseSql).length) + j]? := by
  by_cases hnil : collectNumberedPlaceholders baseSql = []
  · simp only [hnil, maxPlaceholder, List.foldl_nil, lastNumber, pickedBind, bindPosition]
    simp [Nat.add_right_comm n 1 j]
  · have hpos := h.maxPlaceholder_pos hnil
    have hnot : maxPlaceholder (collectNumberedPlaceholders baseSql) + 1 + j ∉
        collectNumberedPlaceholders baseSql := fun hmem => by
      have := le_maxPlaceholder hmem
      omega
    rw [lastNumber, if_pos hpos, pickedBind, bindPosition, if_neg hnot, if_pos (by omega),
      if_neg hnil, Option.bind_some]
    congr 2
    omega

/-! ### The placeholders of the built text -/

/-- The `j`-th generated placeholder. -/
def generatedMark (n : ℕ) (numbers : List ℕ) (j : ℕ) (v : FilterValue) : Mark :=
  ⟨"$" ++ toString (lastNumber n numbers + 1 + j), .pushed v⟩

theorem NumberedBase.kept (h : NumberedBase D baseSql q n) {m : Mark}
    (hm : m ∈ keptMarks D params q) :
    ∃ k ∈ collectNumberedPlaceholders baseSql, m = argumentMark k := by
  obtain ⟨k, hk, rfl⟩ := h.printed m (keptMarks_subset D params q hm)
  exact ⟨k, mem_collect.mpr hk, rfl⟩

theorem mem_issued_iff (hbackend : cfg.backend ≠ .mysql) {numbers : List ℕ}
    (hmax : maxPlaceholder numbers ≤ n) (hcount : n + generated.length < 255) (m : Mark) :
    m ∈ issued cfg (startIndex n (maxPlaceholder numbers) + 1) generated ↔
      ∃ j v, generated[j]? = some v ∧ m = generatedMark n numbers j v := by
  rw [List.mem_iff_getElem?]
  simp only [getElem?_issued, Option.map_eq_some_iff]
  constructor
  · rintro ⟨j, v, hv, rfl⟩
    have hj := (List.getElem?_eq_some_iff.mp hv).1
    exact ⟨j, v, hv, by rw [placeholderText_issued hbackend hmax (by omega)]; rfl⟩
  · rintro ⟨j, v, hv, rfl⟩
    have hj := (List.getElem?_eq_some_iff.mp hv).1
    exact ⟨j, v, hv, by rw [placeholderText_issued hbackend hmax (by omega)]; rfl⟩

section Exact

variable (hbase : NumberedBase D baseSql q n) (hcount : n + generated.length < 255)
include hbase

theorem NumberedBase.numbers_argumentMark (hn : n < 255) {k : ℕ}
    (hk : k ∈ collectNumberedPlaceholders baseSql) :
    placeholderNumbers (argumentMark k).text.toList = [k] := by
  have := (hbase.numbers k (mem_collect.mp hk)).2
  exact placeholderNumbers_dollar (by rw [usizeBound]; omega)

include hcount

theorem NumberedBase.numbers_generatedMark {j : ℕ} {v : FilterValue}
    (hv : generated[j]? = some v) :
    placeholderNumbers
        (generatedMark n (collectNumberedPlaceholders baseSql) j v).text.toList =
      [lastNumber n (collectNumberedPlaceholders baseSql) + 1 + j] := by
  have hj := (List.getElem?_eq_some_iff.mp hv).1
  have hmax := hbase.maxPlaceholder_le
  refine placeholderNumbers_dollar ?_
  rw [lastNumber, usizeBound]
  split <;> omega

variable {ms : List Mark} (hms : ∀ m, m ∈ ms ↔ m ∈ keptMarks D params q ∨
  ∃ j v, generated[j]? = some v ∧
    m = generatedMark n (collectNumberedPlaceholders baseSql) j v)
include hms

theorem NumberedBase.numbers_mark {m : Mark} (hm : m ∈ ms) :
    placeholderNumbers m.text.toList = [markNumber m] := by
  rcases (hms m).mp hm with hkept | ⟨j, v, hv, rfl⟩
  · obtain ⟨k, hk, rfl⟩ := hbase.kept hkept
    rw [markNumber, hbase.numbers_argumentMark (by omega) hk]
    rfl
  · rw [markNumber, hbase.numbers_generatedMark hcount hv]
    rfl

/-- The value picked for a placeholder: an argument by the place of its number
in the base text, a generated value behind. -/
theorem NumberedBase.forall_picked_iff (hlength : initialBinds.length = n)
    (P : Option FilterValue → Mark → Prop) :
    (∀ m ∈ ms, P (pickedBind (initialBinds ++ generated) (collectNumberedPlaceholders baseSql)
        (maxPlaceholder (collectNumberedPlaceholders baseSql)) (markNumber m)) m) ↔
      (∀ k ∈ collectNumberedPlaceholders baseSql, argumentMark k ∈ keptMarks D params q →
        P initialBinds[(collectNumberedPlaceholders baseSql).idxOf k]? (argumentMark k)) ∧
      (∀ j v, generated[j]? = some v →
        P (initialBinds ++ generated)[(if collectNumberedPlaceholders baseSql = [] then n
            else (collectNumberedPlaceholders baseSql).length) + j]?
          (generatedMark n (collectNumberedPlaceholders baseSql) j v)) := by
  have hargument : ∀ k ∈ collectNumberedPlaceholders baseSql,
      markNumber (argumentMark k) = k := fun k hk => by
    rw [markNumber, hbase.numbers_argumentMark (by omega) hk]
    rfl
  have hgenerated : ∀ j v, generated[j]? = some v →
      markNumber (generatedMark n (collectNumberedPlaceholders baseSql) j v) =
        lastNumber n (collectNumberedPlaceholders baseSql) + 1 + j := fun j v hv => by
    rw [markNumber, hbase.numbers_generatedMark hcount hv]
    rfl
  constructor
  · intro h
    refine ⟨fun k hk hkept => ?_, fun j v hv => ?_⟩
    · have hm := h _ ((hms _).mpr (Or.inl hkept))
      rwa [hargument k hk, hbase.pickedBind_argument hlength hk] at hm
    · have hm := h _ ((hms _).mpr (Or.inr ⟨j, v, hv, rfl⟩))
      rwa [hgenerated j v hv, hbase.pickedBind_generated j] at hm
  · rintro ⟨hkeptP, hgeneratedP⟩ m hm
    rcases (hms m).mp hm with hkept | ⟨j, v, hv, rfl⟩
    · obtain ⟨k, hk, rfl⟩ := hbase.kept hkept
      rw [hargument k hk, hbase.pickedBind_argument hlength hk]
      exact hkeptP k hk hkept
    · rw [hgenerated j v hv, hbase.pickedBind_generated j]
      exact hgeneratedP j v hv

/-- Every placeholder picks some value. -/
theorem NumberedBase.isSome_pickedBind (hlength : initialBinds.length = n) :
    ∀ m ∈ ms, (pickedBind (initialBinds ++ generated) (collectNumberedPlaceholders baseSql)
      (maxPlaceholder (collectNumberedPlaceholders baseSql)) (markNumber m)).isSome := by
  have hle := hbase.length_le
  rw [hbase.forall_picked_iff hcount hms hlength fun o _ => o.isSome]
  refine ⟨fun k hk _ => ?_, fun j v hv => ?_⟩
  · have hidx := List.idxOf_lt_length_of_mem hk
    rw [List.getElem?_eq_getElem (by omega)]
    rfl
  · have hj := (List.getElem?_eq_some_iff.mp hv).1
    have hlt : (if collectNumberedPlaceholders baseSql = [] then n
        else (collectNumberedPlaceholders baseSql).length) + j <
          (initialBinds ++ generated).length := by
      rw [List.length_append]
      split <;> omega
    rw [List.getElem?_eq_getElem hlt]
    rfl

end Exact

/-! ### The exact condition -/

/-- A list of arguments that tells its `i`-th place from all others. -/
def probe (n i : ℕ) (v : FilterValue) : List FilterValue := (List.replicate n .null).set i v

theorem length_probe (n i : ℕ) (v : FilterValue) : (probe n i v).length = n := by simp [probe]

theorem eq_of_getElem?_probe {i j : ℕ} (hi : i < n) {v : FilterValue} (hv : v ≠ .null)
    (h : (probe n i v)[j]? = (probe n i v)[i]?) : j = i := by
  rw [probe, List.getElem?_set_self (by simpa using hi)] at h
  by_contra hne
  rw [List.getElem?_set_ne (Ne.symm hne), List.getElem?_replicate] at h
  split at h
  · exact hv (Option.some.inj h).symm
  · simp at h

/-- An argument is bound to `$k` exactly when `$k` is the `k`-th number of the
base text to be used. -/
theorem NumberedBase.argument_bound_iff (hbase : NumberedBase D baseSql q n) {k : ℕ}
    (hk : k ∈ collectNumberedPlaceholders baseSql) :
    (∀ initialBinds : List FilterValue, initialBinds.length = n →
      initialBinds[(collectNumberedPlaceholders baseSql).idxOf k]? = initialBinds[k - 1]?) ↔
      (collectNumberedPlaceholders baseSql)[k - 1]? = some k := by
  have hrange := hbase.numbers k (mem_collect.mp hk)
  constructor
  · intro h
    obtain ⟨v, hv⟩ := exists_fresh [.null]
    have hidx := eq_of_getElem?_probe (by omega) (by simpa using hv)
      (h (probe n (k - 1) v) (length_probe n (k - 1) v))
    rw [← hidx]
    exact List.getElem?_idxOf hk
  · intro h initialBinds _
    obtain ⟨hlt, hget⟩ := List.getElem?_eq_some_iff.mp h
    have hidx := List.Nodup.idxOf_getElem (nodup_collect baseSql) (k - 1) hlt
    rw [hget] at hidx
    rw [hidx]

/-- A generated value is found behind the arguments exactly when the base text
uses all arguments or none. -/
theorem NumberedBase.generated_bound_iff (hbase : NumberedBase D baseSql q n) :
    (∀ initialBinds : List FilterValue, initialBinds.length = n →
      ∀ j v, generated[j]? = some v →
        (initialBinds ++ generated)[(if collectNumberedPlaceholders baseSql = [] then n
          else (collectNumberedPlaceholders baseSql).length) + j]? = some v) ↔
      generated = [] ∨ collectNumberedPlaceholders baseSql = [] ∨
        (collectNumberedPlaceholders baseSql).length = n := by
  have hbehind : ∀ (initialBinds : List FilterValue) (j : ℕ), initialBinds.length = n →
      (initialBinds ++ generated)[n + j]? = generated[j]? := by
    intro initialBinds j hlength
    rw [List.getElem?_append_right (by omega), hlength, Nat.add_sub_cancel_left]
  constructor
  · intro h
    by_contra hnot
    obtain ⟨hgenerated, hnil, hne⟩ := by simpa only [not_or] using hnot
    obtain ⟨v, rest, hcons⟩ := List.exists_cons_of_ne_nil hgenerated
    obtain ⟨fresh, hfresh⟩ := exists_fresh generated
    have hlt : (collectNumberedPlaceholders baseSql).length < n := by
      have := hbase.length_le
      omega
    have hget := h (List.replicate n fresh) (by simp) 0 v (by simp [hcons])
    rw [if_neg hnil, Nat.add_zero, List.getElem?_append_left (by simpa using hlt),
      List.getElem?_replicate, if_pos hlt] at hget
    exact hfresh (by simp [Option.some.inj hget, hcons])
  · rintro (rfl | hnil | hall) initialBinds hlength j v hv
    · simp at hv
    · rw [if_pos hnil, hbehind initialBinds j hlength, hv]
    · have hif : (if collectNumberedPlaceholders baseSql = [] then n
          else (collectNumberedPlaceholders baseSql).length) = n := by
        split
        · rfl
        · exact hall
      rw [hif, hbehind initialBinds j hlength, hv]

/-- The values a built text binds its placeholders to, in a base statement
with `$n` placeholders: every placeholder gets the value it stands for,
whatever the arguments are, exactly when nothing else in the text looks like a
placeholder (`PlainInput.statement`: nothing in the base statement and the field
names does), every `$k` still printed is the `k`-th number used in the base
text, and generated placeholders come only with a base text that uses all
arguments or none. -/
theorem placeholdersBound_iff {initialBinds₀ : List FilterValue} {st : Statement}
    (hbackend : cfg.backend ≠ .mysql)
    (hparse : Core.parseSql parser baseSql = .ok (some (.query q)))
    (hbase : NumberedBase D baseSql q n) (hlength₀ : initialBinds₀.length = n)
    (hstatement : dynamicStatement cfg (.query q) params initialBinds₀
      (maxPlaceholder (collectNumberedPlaceholders baseSql)) =
        .ok (st, initialBinds₀ ++ generated))
    (hcount : n + generated.length < 255)
    (hsize : (render (D.statement st)).length < usizeBound) :
    (∀ initialBinds, initialBinds.length = n → ∀ built,
      buildDynamicSql cfg D parser baseSql params initialBinds = .ok built →
        PlaceholdersBound initialBinds (marks (D.statement st)) built) ↔
      PlainWords (D.statement st) ∧
        (∀ k ∈ collectNumberedPlaceholders baseSql, argumentMark k ∈ keptMarks D params q →
          (collectNumberedPlaceholders baseSql)[k - 1]? = some k) ∧
        (generated = [] ∨ collectNumberedPlaceholders baseSql = [] ∨
          (collectNumberedPlaceholders baseSql).length = n) := by
  obtain ⟨hrun, q', rfl, hprinted⟩ := dynamicStatement_spec D hstatement
  obtain rfl : generated = setExprValues cfg params q.body := by
    have h := hrun initialBinds₀ rfl
    rw [hstatement] at h
    simpa using h
  generalize setExprValues cfg params q.body = generated at *
  change (render (D.query q')).length < usizeBound at hsize
  have hms : ∀ m, m ∈ marks (D.query q') ↔ m ∈ keptMarks D params q ∨
      ∃ j v, generated[j]? = some v ∧
        m = generatedMark n (collectNumberedPlaceholders baseSql) j v := by
    intro m
    rw [hprinted.mem_iff D, hlength₀,
      mem_issued_iff hbackend hbase.maxPlaceholder_le hcount]
  have hnumber : ∀ m ∈ marks (D.query q'), _ := fun m hm => hbase.numbers_mark hcount hms hm
  have hbuilt : ∀ initialBinds : List FilterValue, initialBinds.length = n →
      buildDynamicSql cfg D parser baseSql params initialBinds =
        .ok (numberedAnew baseSql (render (D.query q')) (initialBinds ++ generated)) :=
    fun initialBinds hlength => buildDynamicSql_of_statement D hparse hbase.limit
      (hrun initialBinds (hlength.trans hlength₀.symm))
  -- with plain words, the property is that every placeholder picks its meaning
  have hpicked : PlainWords (D.query q') → ∀ initialBinds : List FilterValue,
      initialBinds.length = n →
        (PlaceholdersBound initialBinds (marks (D.query q'))
            (numberedAnew baseSql (render (D.query q')) (initialBinds ++ generated)) ↔
          ∀ m ∈ marks (D.query q'), pickedBind (initialBinds ++ generated)
            (collectNumberedPlaceholders baseSql)
            (maxPlaceholder (collectNumberedPlaceholders baseSql)) (markNumber m) =
              meaning initialBinds m.origin) := by
    intro hplain initialBinds hlength
    have hnumbers := placeholderNumbers_eq_map (D.separated q') hplain hnumber
    have hsome := hbase.isSome_pickedBind hcount hms hlength
    refine (forall₂_renumbered_iff _ _ _ hsize (by simpa [hnumbers] using hsome)
      (fun o m => o = meaning initialBinds m.origin) _).trans ?_
    rw [hnumbers, List.forall₂_map_left_iff, List.forall₂_same]
  have hexact : (∀ initialBinds : List FilterValue, initialBinds.length = n →
      ∀ m ∈ marks (D.query q'), pickedBind (initialBinds ++ generated)
        (collectNumberedPlaceholders baseSql)
        (maxPlaceholder (collectNumberedPlaceholders baseSql)) (markNumber m) =
          meaning initialBinds m.origin) ↔
      (∀ k ∈ collectNumberedPlaceholders baseSql, argumentMark k ∈ keptMarks D params q →
        (collectNumberedPlaceholders baseSql)[k - 1]? = some k) ∧
      (generated = [] ∨ collectNumberedPlaceholders baseSql = [] ∨
        (collectNumberedPlaceholders baseSql).length = n) := by
    rw [← hbase.generated_bound_iff]
    constructor
    · intro h
      have hsplit := fun initialBinds hlength =>
        (hbase.forall_picked_iff hcount hms hlength fun o m => o = meaning initialBinds m.origin).mp
          (h initialBinds hlength)
      exact ⟨fun k hk hkept => (hbase.argument_bound_iff hk).mp fun initialBinds hlength =>
        (hsplit initialBinds hlength).1 k hk hkept, fun initialBinds hlength =>
          (hsplit initialBinds hlength).2⟩
    · rintro ⟨hargument, hgenerated⟩ initialBinds hlength
      refine (hbase.forall_picked_iff hcount hms hlength
        fun o m => o = meaning initialBinds m.origin).mpr ⟨fun k hk hkept => ?_, ?_⟩
      · exact (hbase.argument_bound_iff hk).mpr (hargument k hk hkept) initialBinds hlength
      · exact hgenerated initialBinds hlength
  rw [← hexact, forall_built_iff D hbuilt fun initialBinds built =>
    PlaceholdersBound initialBinds (marks (D.statement (.query q'))) built]
  constructor
  · intro h
    have hplain : PlainWords (D.query q') := by
      have hbound := h initialBinds₀ hlength₀
      have hlength := hbound.length_eq
      rw [numberedAnew, length_placeholderNumbers_renumbered _ _ _ hsize] at hlength
      exact plainWords_of_length (D.separated q') (fun m hm => by simp [hnumber m hm]) hlength
    exact ⟨hplain, fun initialBinds hlength => (hpicked hplain initialBinds hlength).mp
      (h initialBinds hlength)⟩
  · rintro ⟨hplain, h⟩ initialBinds hlength
    exact (hpicked hplain initialBinds hlength).mpr (h initialBinds hlength)

/-! ### Examples -/

namespace NumberedExample

open Reference

def argument (k : ℕ) : Expr := valueExpr (.placeholder ("$" ++ toString k) (.argument (k - 1)))

/-- `SELECT * FROM users WHERE age > $2 AND name = $1` -/
def outOfOrder : Query :=
  simpleQuery (.select (simpleSelect [.wildcard] "users"
    (some (and (gt "age" (argument 2)) (eq "name" (argument 1))))))

/-- `SELECT * FROM users WHERE age > $1 AND name = $2` -/
def inOrder : Query :=
  simpleQuery (.select (simpleSelect [.wildcard] "users"
    (some (and (gt "age" (argument 1)) (eq "name" (argument 2))))))

end NumberedExample

open NumberedExample Example Reference

/-- Two arguments used in the order `$2`, `$1` change places: the built text
compares the age with the name and the name with the age. -/
theorem placeholders_swapped :
    ∃ st generated,
      dynamicStatement (build .postgres) (.query outOfOrder) inBonn [.string "Ann", .int 30] 2 =
        .ok (st, [.string "Ann", .int 30] ++ generated) ∧
      ∃ built,
        buildDynamicSql (build .postgres) Display.reference (parserOf outOfOrder) (text outOfOrder)
          inBonn [.string "Ann", .int 30] = .ok built ∧
        built.sql = "SELECT * FROM users WHERE age > $1 AND name = $2 AND city = $3".toList ∧
        built.bindValues = [.string "Ann", .int 30, .string "Bonn"] ∧
        ¬PlaceholdersBound [.string "Ann", .int 30] (marks (Display.reference.statement st))
          built := by
  refine ⟨_, [.string "Bonn"], rfl, _, rfl, by decide, by decide, fun h => ?_⟩
  have hfirst := (List.forall₂_cons.mp h).1.2
  revert hfirst
  decide

/-- With the numbers in order, every placeholder is bound to its value. -/
theorem placeholders_kept :
    ∃ st generated,
      dynamicStatement (build .postgres) (.query inOrder) inBonn [.int 30, .string "Ann"] 2 =
        .ok (st, [.int 30, .string "Ann"] ++ generated) ∧
      ∃ built,
        buildDynamicSql (build .postgres) Display.reference (parserOf inOrder) (text inOrder) inBonn
          [.int 30, .string "Ann"] = .ok built ∧
        PlaceholdersBound [.int 30, .string "Ann"] (marks (Display.reference.statement st))
          built := by
  refine ⟨_, [.string "Bonn"], rfl, _, rfl, ?_⟩
  refine (@placeholdersBound_iff (build .postgres) Display.reference (parserOf inOrder) (text inOrder)
    inOrder inBonn 2 [.string "Bonn"] [.int 30, .string "Ann"] _ (by decide) rfl
    ⟨by decide, by decide, by decide⟩ rfl rfl (by decide) (by decide)).mpr
      ⟨by decide, by decide, by decide⟩ _ rfl _ rfl

end SqlxData.Dynamic
