import SqlxData.Sqlparser.Display

/-!
Conditions on rows. A row gives a truth value to each operand; a condition is
satisfied along its skeleton, and it is passed as text when what its printed
text is read as holds, with NOT over AND over OR.
-/

namespace SqlxData.Sqlparser

open BoolText BoolText.Formula ThreeValued

section Rows

variable (value : Expr → Truth)

/-- The row with these operand values satisfies the condition. -/
def Satisfies (e : Expr) : Prop := Holds value e.skeleton

/-- The row passes the condition as it is printed and read back. -/
def PassesText (e : Expr) : Prop := ∃ r, read e.skeleton.print = some r ∧ Holds value r

/-- The row passes a WHERE, or the group a HAVING. -/
def PassesClause (clause : Option Expr) : Prop := ∀ e ∈ clause, PassesText value e

/-- Every run of the conditions, written one after another with AND, brings
all conditions along. -/
def RunsComplete (es : List Expr) : Prop :=
  ∀ run ∈ weave (es.map Expr.skeleton), RunHolds value run → ∀ e ∈ es, Satisfies value e

variable {value}

/-- A condition that the parser has returned is read back as itself. -/
theorem passesText_of_canonical {e : Expr} (he : e.skeleton.Canonical) :
    PassesText value e ↔ Satisfies value e := by
  rw [PassesText, read_print he]
  simp [Satisfies]

/-- What is passed when conditions are joined by AND. -/
theorem passesText_andAll_iff {e joined : Expr} {es : List Expr}
    (hcanonical : ∀ e' ∈ e :: es, e'.skeleton.Canonical)
    (hprint : joined.skeleton.print = (e.skeleton.andAll (es.map Expr.skeleton)).print) :
    PassesText value joined ↔ SomeRunHolds value (weave ((e :: es).map Expr.skeleton)) := by
  obtain ⟨r, hread, hholds⟩ := @holds_read_chain _ value _ _ (hcanonical e (by simp))
    (List.forall_mem_map.mpr fun e' he' => hcanonical e' (List.mem_cons_of_mem e he'))
  rw [PassesText, hprint, hread, List.map_cons, ← hholds]
  simp

/-- On one row, conditions joined by AND are read back as their conjunction
exactly when every run brings all of them along. -/
theorem passesText_iff_runsComplete {e joined : Expr} {es : List Expr}
    (hcanonical : ∀ e' ∈ e :: es, e'.skeleton.Canonical)
    (hprint : joined.skeleton.print = (e.skeleton.andAll (es.map Expr.skeleton)).print) :
    (PassesText value joined ↔ ∀ e' ∈ e :: es, Satisfies value e') ↔
      RunsComplete value (e :: es) := by
  have hexact := @someRunHolds_iff_forall_iff _ value ((e :: es).map Expr.skeleton)
  simp only [List.forall_mem_map] at hexact
  rw [passesText_andAll_iff hcanonical hprint]
  exact hexact

end Rows

theorem skeleton_foldl_and (e : Expr) (es : List Expr) :
    (es.foldl (.binaryOp · .and ·) e).skeleton = e.skeleton.andAll (es.map Expr.skeleton) := by
  induction es using List.reverseRecOn with
  | nil => rfl
  | append_singleton es e' ih =>
      simp only [andAll, List.foldl_append, List.map_append, List.foldl_cons, List.foldl_nil,
        List.map_cons, List.map_nil] at ih ⊢
      rw [← ih]
      rfl

/-- A condition in front of joined ones. -/
theorem print_and_foldl_and (existing e : Expr) (es : List Expr) :
    (Expr.binaryOp existing .and (es.foldl (.binaryOp · .and ·) e)).skeleton.print =
      (existing.skeleton.andAll ((e :: es).map Expr.skeleton)).print := by
  rw [List.map_cons, ← print_and_andAll, ← skeleton_foldl_and]
  rfl

end SqlxData.Sqlparser
