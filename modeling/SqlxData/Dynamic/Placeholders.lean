import SqlxData.Sqlparser.Display
import Mathlib.Data.List.Sort
import Mathlib.Algebra.GroupWithZero.Nat

/-!
The placeholder passes of the dynamic builder over the text of a statement:
the arguments of a replaced LIMIT/OFFSET are dropped, the `$k` of the base text
are collected in the order of their first use, and the `$k` of the final text
are numbered anew while the bind values are picked for them.

The bind values are only moved around, so their type is a parameter here.
-/

namespace SqlxData.Dynamic

open SqlxData.Sqlparser NumberedText

/-- `usize` has 64 bits. -/
def usizeBound : ℕ := 2 ^ 64

def parseUsize (text : List Char) : Option ℕ :=
  let digits := match text with
    | '+' :: digits => digits
    | digits => digits
  if digits ≠ [] ∧ digits.all Char.isDigit then readNumber usizeBound digits else none

variable {β : Type}

/-! ### LIMIT and OFFSET placeholders -/

/-- The outer `some` says that the expression is a placeholder, the inner one
that it is a numbered one. -/
def placeholderIndex : Expr → Option (Option ℕ)
  | .value (.placeholder ph _) =>
      if ph = "?" then
        some none
      else
        match ph.toList with
        | '$' :: number => (parseUsize number).map some
        | _ => some none
  | _ => none

/-- The expressions of a LIMIT clause that may be placeholders, in the order
in which they are looked at. -/
def LimitClause.operands : LimitClause → List Expr
  | .limitOffset limit offset _ => limit.toList ++ (offset.map Offset.value).toList
  | .offsetCommaLimit offset limit => [offset, limit]

def removeNumbered (bindValues : List β) (index : ℕ) : List β :=
  if index - 1 < bindValues.length then bindValues.eraseIdx (index - 1) else bindValues

def trimLimitOffsetPlaceholderBinds (query : Query) (bindValues : List β) : List β × List ℕ :=
  match query.limitClause with
  | none => (bindValues, [])
  | some limitClause =>
      let found := (LimitClause.operands limitClause).filterMap placeholderIndex
      let numberedPositions := found.reduceOption.insertionSort (· ≥ ·)
      if numberedPositions ≠ [] then
        (numberedPositions.foldl removeNumbered bindValues, numberedPositions)
      else
        (List.dropLast^[found.length] bindValues, numberedPositions)

/-! ### Collecting the numbers of the base text -/

/-- `skip` counts the characters up to which the index has been moved. -/
def collectFrom (seen : List ℕ) : ℕ → List Char → List ℕ
  | _, [] => []
  | skip + 1, _ :: rest => collectFrom seen skip rest
  | 0, c :: rest =>
      match markerAt usizeBound (c :: rest) with
      | some (index, digits) =>
          if index ∈ seen then collectFrom seen 0 rest
          else index :: collectFrom (index :: seen) digits rest
      | none => collectFrom seen 0 rest

def collectNumberedPlaceholders (sql : List Char) : List ℕ := collectFrom [] 0 sql

/-! ### Numbering anew -/

structure Renumbering (β : Type) where
  nextIndex : ℕ
  oldToNew : List (ℕ × ℕ)
  reorderedBindValues : List β

def Renumbering.start : Renumbering β := ⟨1, [], []⟩

/-- Where the value of a number stands in the bind list; `usize::MAX` in the
source, a position no list has, is `none`. -/
def bindPosition (originalPlaceholderNumbers : List ℕ) (maxExistingPlaceholder oldIndex : ℕ) :
    Option ℕ :=
  if oldIndex ∈ originalPlaceholderNumbers then
    some (originalPlaceholderNumbers.idxOf oldIndex)
  else if oldIndex > maxExistingPlaceholder then
    some (originalPlaceholderNumbers.length + (oldIndex - (maxExistingPlaceholder + 1)))
  else
    none

section Renumber

variable (bindValues : List β) (originalPlaceholderNumbers : List ℕ)
  (maxExistingPlaceholder : ℕ)

def pickedBind (oldIndex : ℕ) : Option β :=
  (bindPosition originalPlaceholderNumbers maxExistingPlaceholder oldIndex).bind (bindValues[·]?)

/-- The new number of an old one; a number met for the first time takes the
next index and its bind value is pushed. -/
def Renumbering.entry (r : Renumbering β) (oldIndex : ℕ) : ℕ × Renumbering β :=
  match r.oldToNew.lookup oldIndex with
  | some newIndex => (newIndex, r)
  | none =>
      (r.nextIndex,
        { nextIndex := r.nextIndex + 1
          oldToNew := r.oldToNew ++ [(oldIndex, r.nextIndex)]
          reorderedBindValues := r.reorderedBindValues ++
            (pickedBind bindValues originalPlaceholderNumbers maxExistingPlaceholder
              oldIndex).toList })

def renumberFrom (r : Renumbering β) : ℕ → List Char → List Char × Renumbering β
  | _, [] => ([], r)
  | skip + 1, _ :: rest => renumberFrom r skip rest
  | 0, c :: rest =>
      match markerAt usizeBound (c :: rest) with
      | some (oldIndex, digits) =>
          let (newIndex, r) :=
            r.entry bindValues originalPlaceholderNumbers maxExistingPlaceholder oldIndex
          let (out, r) := renumberFrom r digits rest
          ('$' :: (toString newIndex).toList ++ out, r)
      | none =>
          let (out, r) := renumberFrom r 0 rest
          (c :: out, r)

def renumberNumberedPlaceholdersWithBinds (sql : List Char) : List Char × List β :=
  let (out, r) := renumberFrom bindValues originalPlaceholderNumbers maxExistingPlaceholder
    .start 0 sql
  if r.reorderedBindValues.isEmpty then (sql, bindValues) else (out, r.reorderedBindValues)

end Renumber

/-! ### What the passes compute -/

/-- The numbers of a text, from left to right. -/
def placeholderNumbers (sql : List Char) : List ℕ := numbers (pieces usizeBound sql)

/-- Moving the index to the end of a run of digits or scanning through it
collects the same numbers. -/
theorem collectFrom_drop (seen : List ℕ) (skip : ℕ) (cs : List Char) :
    collectFrom seen skip cs = collectFrom seen 0 (cs.drop skip) := by
  induction cs generalizing skip with
  | nil => cases skip <;> simp [collectFrom]
  | cons c rest ih =>
      cases skip with
      | zero => rfl
      | succ skip => simpa [collectFrom] using ih skip

theorem collectFrom_digits (seen : List ℕ) (cs : List Char) :
    collectFrom seen 0 (cs.drop (cs.takeWhile Char.isDigit).length) = collectFrom seen 0 cs := by
  induction cs with
  | nil => rfl
  | cons c rest ih =>
      by_cases hc : c.isDigit
      · have hne : c ≠ '$' := by
          rintro rfl
          simp at hc
        rw [collectFrom, markerAt_of_ne hne]
        simpa [hc] using ih
      · simp [hc]

/-- The order in which seen numbers are kept does not matter to the pass. -/
theorem collectFrom_eq {seen order : List ℕ} (hseen : ∀ k, k ∈ seen ↔ k ∈ order)
    (cs : List Char) :
    firstUse order (numbers (pieces usizeBound cs)) = order ++ collectFrom seen 0 cs := by
  induction hn : cs.length using Nat.strongRecOn generalizing seen order cs with
  | _ n ih =>
      cases cs with
      | nil => simp [collectFrom, firstUse]
      | cons c rest =>
          have hlt : rest.length < n := by simp [← hn]
          rw [collectFrom, pieces_cons]
          cases h : markerAt usizeBound (c :: rest) with
          | none => exact ih _ hlt hseen rest rfl
          | some m =>
              obtain ⟨index, digits⟩ := m
              obtain ⟨-, rfl, -⟩ := markerAt_eq_some h
              have hdrop : (rest.drop (rest.takeWhile Char.isDigit).length).length < n := by
                simp only [List.length_drop]
                omega
              simp only [numbers_marker, firstUse]
              by_cases hindex : index ∈ seen
              · rw [if_pos ((hseen index).mp hindex), if_pos hindex, ih _ hdrop hseen _ rfl,
                  collectFrom_digits]
              · have hseen' : ∀ k, k ∈ index :: seen ↔ k ∈ order ++ [index] := by
                  intro k
                  rw [List.mem_cons, List.mem_append, List.mem_singleton, hseen k, or_comm]
                rw [if_neg fun hmem => hindex ((hseen index).mpr hmem), if_neg hindex,
                  ih _ hdrop hseen' _ rfl, ← collectFrom_drop (index :: seen)]
                simp

theorem collectNumberedPlaceholders_eq (sql : List Char) :
    collectNumberedPlaceholders sql = firstUse [] (placeholderNumbers sql) := by
  rw [placeholderNumbers, collectFrom_eq (fun _ => Iff.rfl), List.nil_append]
  rfl

section Renumber

variable (bindValues : List β) (originalPlaceholderNumbers : List ℕ)
  (maxExistingPlaceholder : ℕ)

/-- The state after the numbers `seen` were met in this order. -/
structure Renumbering.After (seen : List ℕ) (r : Renumbering β) : Prop where
  nextIndex : r.nextIndex = seen.length + 1
  oldToNew : ∀ k, r.oldToNew.lookup k = if k ∈ seen then some (rank seen k) else none
  reorderedBindValues : r.reorderedBindValues =
    seen.filterMap (pickedBind bindValues originalPlaceholderNumbers maxExistingPlaceholder)

theorem Renumbering.after_start :
    (Renumbering.start : Renumbering β).After bindValues originalPlaceholderNumbers
      maxExistingPlaceholder [] :=
  ⟨rfl, fun _ => rfl, rfl⟩

theorem rank_append_self {seen : List ℕ} {k : ℕ} (hk : k ∉ seen) :
    rank (seen ++ [k]) k = seen.length + 1 := by
  simp [rank, List.idxOf_append, hk]

theorem rank_append_of_mem {seen : List ℕ} {k : ℕ} (hk : k ∈ seen) (j : ℕ) :
    rank (seen ++ [j]) k = rank seen k :=
  rank_of_prefix (List.prefix_append seen [j]) hk

variable {bindValues originalPlaceholderNumbers maxExistingPlaceholder}

theorem Renumbering.entry_after {seen : List ℕ} {r : Renumbering β}
    (h : r.After bindValues originalPlaceholderNumbers maxExistingPlaceholder seen) (k : ℕ) :
    let entered := r.entry bindValues originalPlaceholderNumbers maxExistingPlaceholder k
    entered.1 = rank (firstUse seen [k]) k ∧
      entered.2.After bindValues originalPlaceholderNumbers maxExistingPlaceholder
        (firstUse seen [k]) := by
  by_cases hk : k ∈ seen
  · have hlookup : r.oldToNew.lookup k = some (rank seen k) := by rw [h.oldToNew, if_pos hk]
    simpa [Renumbering.entry, hlookup, firstUse, hk] using h
  · have hlookup : r.oldToNew.lookup k = none := by rw [h.oldToNew, if_neg hk]
    simp only [Renumbering.entry, hlookup, firstUse, if_neg hk]
    refine ⟨by rw [h.nextIndex, rank_append_self hk], ?_, ?_, ?_⟩
    · simp [h.nextIndex]
    · intro j
      rw [List.lookup_append, h.oldToNew j]
      by_cases hj : j ∈ seen
      · simp [hj, rank_append_of_mem hj]
      · by_cases hjk : j = k
        · subst hjk
          simp [hk, h.nextIndex, rank_append_self hk]
        · have hbeq : (j == k) = false := by simpa using hjk
          simp [hj, hjk, List.lookup_cons, hbeq]
    · rw [h.reorderedBindValues, List.filterMap_append]
      cases hpick : pickedBind bindValues originalPlaceholderNumbers maxExistingPlaceholder k <;>
        simp [hpick]

theorem firstUse_cons (seen : List ℕ) (k : ℕ) (ks : List ℕ) :
    firstUse seen (k :: ks) = firstUse (firstUse seen [k]) ks := by
  by_cases hk : k ∈ seen <;> simp [firstUse, hk]

theorem mem_firstUse_singleton (seen : List ℕ) (k : ℕ) : k ∈ firstUse seen [k] :=
  mem_firstUse.mpr (Or.inr (by simp))

variable (bindValues originalPlaceholderNumbers maxExistingPlaceholder) in
theorem renumberFrom_drop (r : Renumbering β) (skip : ℕ) (cs : List Char) :
    renumberFrom bindValues originalPlaceholderNumbers maxExistingPlaceholder r skip cs =
      renumberFrom bindValues originalPlaceholderNumbers maxExistingPlaceholder r 0
        (cs.drop skip) := by
  induction cs generalizing skip with
  | nil => cases skip <;> simp [renumberFrom]
  | cons c rest ih =>
      cases skip with
      | zero => rfl
      | succ skip => simpa [renumberFrom] using ih skip

/-- The scan spells the pieces with their ranks; the ranks of numbers already
met do not change any more. -/
theorem renumberFrom_after {seen : List ℕ} {r : Renumbering β}
    (h : r.After bindValues originalPlaceholderNumbers maxExistingPlaceholder seen)
    (cs : List Char) :
    let order := firstUse seen (placeholderNumbers cs)
    let renumbered :=
      renumberFrom bindValues originalPlaceholderNumbers maxExistingPlaceholder r 0 cs
    renumbered.1 = spell (relabel (rank order) (pieces usizeBound cs)) ∧
      renumbered.2.After bindValues originalPlaceholderNumbers maxExistingPlaceholder order := by
  induction hn : cs.length using Nat.strongRecOn generalizing seen r cs with
  | _ n ih =>
      cases cs with
      | nil => exact ⟨rfl, h⟩
      | cons c rest =>
          have hlt : rest.length < n := by simp [← hn]
          simp only [placeholderNumbers] at ih ⊢
          rw [renumberFrom, pieces_cons]
          cases hmarker : markerAt usizeBound (c :: rest) with
          | none =>
              obtain ⟨hout, hafter⟩ := ih _ hlt h rest rfl
              exact ⟨by simp [hout], hafter⟩
          | some m =>
              obtain ⟨k, digits⟩ := m
              have hdrop : (rest.drop digits).length < n := by
                simp only [List.length_drop]
                omega
              obtain ⟨hnew, hentry⟩ := r.entry_after h k
              obtain ⟨hout, hafter⟩ := ih _ hdrop hentry (rest.drop digits) rfl
              simp only [numbers_marker, relabel_marker, spell_marker]
              rw [firstUse_cons, rank_of_prefix (prefix_firstUse _ _) (mem_firstUse_singleton seen k),
                ← hnew, ← hout, renumberFrom_drop]
              exact ⟨rfl, hafter⟩

/-- The numbers of a text in the order of their first use. -/
def numberOrder (sql : List Char) : List ℕ := firstUse [] (placeholderNumbers sql)

variable (bindValues originalPlaceholderNumbers maxExistingPlaceholder) in
/-- Every marker gets the rank of its number; the bind values are picked in
the order of first use. -/
theorem renumberNumberedPlaceholdersWithBinds_eq (sql : List Char) :
    renumberNumberedPlaceholdersWithBinds bindValues originalPlaceholderNumbers
        maxExistingPlaceholder sql =
      let picked := (numberOrder sql).filterMap
        (pickedBind bindValues originalPlaceholderNumbers maxExistingPlaceholder)
      if picked.isEmpty then (sql, bindValues)
      else (spell (relabel (rank (numberOrder sql)) (pieces usizeBound sql)), picked) := by
  have hstart := Renumbering.after_start bindValues originalPlaceholderNumbers
    maxExistingPlaceholder
  obtain ⟨hout, hafter⟩ := renumberFrom_after hstart sql
  simp only [renumberNumberedPlaceholdersWithBinds, hout, hafter.reorderedBindValues]
  rfl

end Renumber

end SqlxData.Dynamic
