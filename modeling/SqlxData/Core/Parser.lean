import SqlxData.Sqlparser.Ast

/-!
`parse_sql`: one statement out of a text. The crate's parser is a parameter;
the cache in front of it only keeps statements already parsed.
-/

namespace SqlxData.Core

open SqlxData.Sqlparser

/-- The parser of the crate for the dialect of the build. -/
abbrev Parser := List Char → Option (List Statement)

inductive ParserError
  | parseSql (msg : String)
  | validation (msg : String)
  | invalidArgument (msg : String)
  deriving DecidableEq, Repr

/-- The message of an error. -/
def ParserError.display : ParserError → String
  | .parseSql msg => "error occurred while parsing SQL: " ++ msg
  | .validation msg => msg
  | .invalidArgument msg => msg

def parseSql (parser : Parser) (sql : List Char) : Except ParserError (Option Statement) :=
  if sql.isEmpty then
    .error (.parseSql "Empty SQL statement provided.")
  else
    match parser sql with
    | none => .ok none
    | some statements =>
        if statements.length > 1 then
          .error (.parseSql "Multiple SQL statements detected; only one statement is allowed.")
        else
          match statements.head? with
          | some statement => .ok (some statement)
          | none => .error (.parseSql "No SQL statement found after parsing.")

/-- A sequence that succeeds has succeeded at each step. -/
theorem exists_of_bind_eq_ok {ε α β : Type} {x : Except ε α} {f : α → Except ε β} {b : β}
    (h : x >>= f = .ok b) : ∃ a, x = .ok a ∧ f a = .ok b := by
  cases x with
  | error err => cases h
  | ok a => exact ⟨a, rfl, h⟩

/-- What a step keeps, a run keeps. -/
theorem foldlM_keeps {ε σ α : Type} {f : σ → α → Except ε σ} (P : σ → Prop) {xs : List α}
    (hstep : ∀ s a s', a ∈ xs → f s a = .ok s' → P s → P s') {s s' : σ} (hs : P s)
    (h : xs.foldlM f s = .ok s') : P s' := by
  induction xs generalizing s with
  | nil =>
      cases h
      exact hs
  | cons a xs ih =>
      rw [List.foldlM_cons] at h
      obtain ⟨s₁, ha, hxs⟩ := exists_of_bind_eq_ok h
      apply ih (fun s b s' hb => hstep s b s' (List.mem_cons_of_mem a hb)) _ hxs
      exact hstep s a s₁ List.mem_cons_self ha hs

/-- A run whose steps all succeed succeeds. -/
theorem foldlM_succeeds {ε σ α : Type} {f : σ → α → Except ε σ} (P : σ → Prop) {xs : List α}
    (hstep : ∀ s a, a ∈ xs → P s → ∃ s', f s a = .ok s' ∧ P s') {s : σ} (hs : P s) :
    ∃ s', xs.foldlM f s = .ok s' ∧ P s' := by
  induction xs generalizing s with
  | nil => exact ⟨s, rfl, hs⟩
  | cons a xs ih =>
      obtain ⟨s₁, ha, hs₁⟩ := hstep s a List.mem_cons_self hs
      rw [List.foldlM_cons, ha]
      exact ih (fun s b hb => hstep s b (List.mem_cons_of_mem a hb)) hs₁

end SqlxData.Core
