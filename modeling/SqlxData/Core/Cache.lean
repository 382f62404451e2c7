import SqlxData.Core.Parser
import SqlxData.Core.ParserCount
import SqlxData.Lib.Memo
import SqlxData.Sqlparser.Reference
import Mathlib.Data.Set.Operations

/-!
The caches in front of the parser and of the count queries. Both have the
fingerprint of the text as their key; only successes are kept.
-/

namespace SqlxData.Core

open SqlxData.Sqlparser Memo

/-- The global caches. -/
inductive CacheName
  | sqlParserCache
  | countSqlCache
  deriving DecidableEq

abbrev SqlKey := UInt64

def CacheName.Value : CacheName → Type
  | .sqlParserCache => Statement
  | .countSqlCache => List Char

/-- A computation over the two caches. -/
abbrev Cached (α : Type) := Prog SqlKey CacheName.Value α

section Calls

variable (D : Display) (parser : Parser) (fingerprint : List Char → SqlKey)

namespace Cached

/-- `parse_sql`, with its cache. -/
def parseSql (sql : List Char) : Cached (Except ParserError (Option Statement)) :=
  if sql.isEmpty then
    .done (.error (.parseSql "Empty SQL statement provided."))
  else
    let key := fingerprint sql
    .get .sqlParserCache key fun
      | some cached => .done (.ok (some cached))
      | none =>
          match parser sql with
          | none => .done (.ok none)
          | some statements =>
              if statements.length > 1 then
                .done (.error (.parseSql
                  "Multiple SQL statements detected; only one statement is allowed."))
              else
                match statements.head? with
                | none => .done (.error (.parseSql "No SQL statement found after parsing."))
                | some statement =>
                    .insert .sqlParserCache key statement (.done (.ok (some statement)))

/-- The statement of `build_count_query_from_sql`: kept, or parsed now. -/
def statementForCount (sql : List Char) : Cached (Except ParserError Statement) :=
  .get .sqlParserCache (fingerprint sql) fun
    | some cachedAst => .done (.ok cachedAst)
    | none => do
        match ← parseSql parser fingerprint sql with
        | .error err => return .error err
        | .ok none => return .error (.parseSql "No valid SQL statement found")
        | .ok (some statement) => return .ok statement

def buildCountQueryFromSql (sql : List Char) : Cached (Except ParserError (List Char)) :=
  let key := fingerprint sql
  .get .countSqlCache key fun
    | some cachedCountSql => .done (.ok cachedCountSql)
    | none => do
        match ← statementForCount parser fingerprint sql with
        | .error err => return .error err
        | .ok statement =>
            let countSql := generateCountQuery D statement none
            .insert .countSqlCache key countSql (.done (.ok countSql))

end Cached

/-! ### Calls -/

inductive Call
  | parseSql (sql : List Char)
  | buildCountQueryFromSql (sql : List Char)

inductive Answer
  | parsed (result : Except ParserError (Option Statement))
  | countSql (result : Except ParserError (List Char))

namespace Call

def sql : Call → List Char
  | .parseSql sql => sql
  | .buildCountQueryFromSql sql => sql

def run : Call → Cached Answer
  | .parseSql sql => return .parsed (← Cached.parseSql parser fingerprint sql)
  | .buildCountQueryFromSql sql =>
      return .countSql (← Cached.buildCountQueryFromSql D parser fingerprint sql)

end Call

/-! ### Right entries -/

/-- A kept statement is the parse of the text with its key, a kept count query
is made of this parse. -/
def RightEntry (texts : Set (List Char)) : (name : CacheName) → SqlKey → name.Value → Prop
  | .sqlParserCache, key, statement => ∃ sql ∈ texts, fingerprint sql = key ∧
      Core.parseSql parser sql = .ok (some statement)
  | .countSqlCache, key, countSql => ∃ sql ∈ texts, fingerprint sql = key ∧
      ∃ statement, Core.parseSql parser sql = .ok (some statement) ∧
        countSql = generateCountQuery D statement none

/-- The statement a count query is made of, without caches. -/
def parsedForCount (sql : List Char) : Except ParserError Statement :=
  match Core.parseSql parser sql with
  | .error err => .error err
  | .ok none => .error (.parseSql "No valid SQL statement found")
  | .ok (some statement) => .ok statement

/-- The count query of a text, without caches. -/
def countQueryFromSql (sql : List Char) : Except ParserError (List Char) :=
  (parsedForCount parser sql).map (generateCountQuery D · none)

/-- The answer to a call, without caches. -/
def Call.answer : Call → Answer
  | .parseSql sql => .parsed (Core.parseSql parser sql)
  | .buildCountQueryFromSql sql => .countSql (countQueryFromSql D parser sql)

variable {D parser fingerprint} {texts : Set (List Char)} {sql : List Char}

theorem parsed_of_right (hinj : Set.InjOn fingerprint texts) (hsql : sql ∈ texts)
    {statement : Statement}
    (h : RightEntry D parser fingerprint texts .sqlParserCache (fingerprint sql) statement) :
    Core.parseSql parser sql = .ok (some statement) := by
  obtain ⟨sql', hsql', hkey, hparse⟩ := h
  obtain rfl := hinj hsql' hsql hkey
  exact hparse

theorem returns_parseSql (hinj : Set.InjOn fingerprint texts) (hsql : sql ∈ texts) :
    (Cached.parseSql parser fingerprint sql).Returns (RightEntry D parser fingerprint texts)
      (Core.parseSql parser sql) := by
  by_cases hempty : sql.isEmpty
  · rw [Cached.parseSql, if_pos hempty, Core.parseSql, if_pos hempty]
    rfl
  rw [Cached.parseSql, if_neg hempty]
  refine ⟨?_, fun cached hcached => ?_⟩
  · cases hstatements : parser sql with
    | none =>
        rw [Core.parseSql, if_neg hempty, hstatements]
        rfl
    | some statements =>
        by_cases hmany : statements.length > 1
        · rw [Core.parseSql, if_neg hempty, hstatements]
          simp only [if_pos hmany]
          rfl
        cases hstatement : statements.head? with
        | none =>
            rw [Core.parseSql, if_neg hempty, hstatements]
            simp only [if_neg hmany, hstatement]
            rfl
        | some statement =>
            have hparse : Core.parseSql parser sql = .ok (some statement) := by
              rw [Core.parseSql, if_neg hempty, hstatements]
              simp only [if_neg hmany, hstatement]
            rw [hparse]
            simp only [if_neg hmany, hstatement]
            exact ⟨⟨sql, hsql, rfl, hparse⟩, rfl⟩
  · rw [parsed_of_right hinj hsql hcached]
    rfl

theorem returns_statementForCount (hinj : Set.InjOn fingerprint texts) (hsql : sql ∈ texts) :
    (Cached.statementForCount parser fingerprint sql).Returns
      (RightEntry D parser fingerprint texts) (parsedForCount parser sql) := by
  refine ⟨(returns_parseSql hinj hsql).bind ?_, fun cachedAst hcached => ?_⟩
  · rw [parsedForCount]
    rcases Core.parseSql parser sql with err | _ | statement <;> rfl
  · rw [parsedForCount, parsed_of_right hinj hsql hcached]
    rfl

theorem parsed_of_parsedForCount {statement : Statement}
    (h : parsedForCount parser sql = .ok statement) :
    Core.parseSql parser sql = .ok (some statement) := by
  rw [parsedForCount] at h
  rcases hparse : Core.parseSql parser sql with err | _ | found
  · rw [hparse] at h
    cases h
  · rw [hparse] at h
    cases h
  · rw [hparse] at h
    rw [Except.ok.inj h]

theorem returns_buildCountQueryFromSql (hinj : Set.InjOn fingerprint texts) (hsql : sql ∈ texts) :
    (Cached.buildCountQueryFromSql D parser fingerprint sql).Returns
      (RightEntry D parser fingerprint texts) (countQueryFromSql D parser sql) := by
  refine ⟨(returns_statementForCount hinj hsql).bind ?_, ?_⟩
  · rw [countQueryFromSql]
    cases hstatement : parsedForCount parser sql with
    | error err => rfl
    | ok statement =>
        refine ⟨⟨sql, hsql, rfl, statement, parsed_of_parsedForCount hstatement, rfl⟩, rfl⟩
  · rintro countSql ⟨sql', hsql', hkey, statement, hparse, rfl⟩
    obtain rfl := hinj hsql' hsql hkey
    rw [countQueryFromSql, parsedForCount, hparse]
    rfl

theorem returns_run (hinj : Set.InjOn fingerprint texts) {c : Call} (hc : c.sql ∈ texts) :
    (c.run D parser fingerprint).Returns (RightEntry D parser fingerprint texts)
      (c.answer D parser) := by
  cases c with
  | parseSql sql => exact (returns_parseSql hinj hc).bind rfl
  | buildCountQueryFromSql sql => exact (returns_buildCountQueryFromSql hinj hc).bind rfl

/-- Calls of both functions in any order, on texts with different
fingerprints, whatever entries the caches lose at whatever moment: every run
returns what the calls return with empty caches, which is what the parser and
the count query alone say. -/
theorem cache_transparent (calls : List Call)
    (hinj : Set.InjOn fingerprint {sql | ∃ c ∈ calls, c.sql = sql}) :
    (∃ answers s, RunsAll .empty (calls.map (Call.run D parser fingerprint)) answers s) ∧
    (∀ answers s, RunsAll .empty (calls.map (Call.run D parser fingerprint)) answers s →
      answers = calls.map fun c => (c.run D parser fingerprint).uncached) ∧
    ∀ c ∈ calls, (c.run D parser fingerprint).uncached = c.answer D parser := by
  have hreturns : ∀ c ∈ calls, (c.run D parser fingerprint).Returns
      (RightEntry D parser fingerprint {sql | ∃ c ∈ calls, c.sql = sql}) (c.answer D parser) :=
    fun c hc => returns_run hinj ⟨c, hc, rfl⟩
  refine ⟨exists_runsAll _ _, fun answers s hrun => ?_, fun c hc => (hreturns c hc).uncached⟩
  have hall : ∀ p ∈ calls.map (Call.run D parser fingerprint), p.Returns
      (RightEntry D parser fingerprint {sql | ∃ c ∈ calls, c.sql = sql}) p.uncached := by
    intro p hp
    obtain ⟨c, hc, rfl⟩ := List.mem_map.mp hp
    rw [(hreturns c hc).uncached]
    exact hreturns c hc
  rw [(hrun.results hall Store.right_empty).1, List.map_map]
  rfl

end Calls

/-- A text that does not parse between two calls for one that does. -/
theorem cache_transparent_kept :
    let users := Reference.simpleQuery (.select (Reference.simpleSelect [.wildcard] "users" none))
    let sql := Reference.text users
    let fingerprint := fun sql : List Char => UInt64.ofNat sql.length
    ∃ answers s, RunsAll .empty ([.parseSql sql, .parseSql ['x'], .buildCountQueryFromSql sql].map
        (Call.run Display.reference (Reference.parserOf users) fingerprint)) answers s ∧
      answers = [.parsed (.ok (some (.query users))), .parsed (.ok none),
        .countSql (.ok "SELECT COUNT(*) FROM users".toList)] := by
  intro users sql fingerprint
  have htexts : ∀ c ∈ [Call.parseSql sql, .parseSql ['x'], .buildCountQueryFromSql sql],
      c.sql = sql ∨ c.sql = ['x'] := by simp [Call.sql]
  have hapart : fingerprint sql ≠ fingerprint ['x'] := by decide
  have hinj : Set.InjOn fingerprint {text | ∃ c ∈ [Call.parseSql sql, .parseSql ['x'],
      .buildCountQueryFromSql sql], c.sql = text} := by
    rintro _ ⟨c, hc, rfl⟩ _ ⟨c', hc', rfl⟩ h
    rcases htexts c hc with hsql | hsql <;> rcases htexts c' hc' with hsql' | hsql' <;>
      rw [hsql, hsql'] at h ⊢
    · exact absurd h hapart
    · exact absurd h.symm hapart
  obtain ⟨⟨answers, s, hrun⟩, hanswers, -⟩ := @cache_transparent Display.reference
    (Reference.parserOf users) fingerprint _ hinj
  refine ⟨answers, s, hrun, (hanswers answers s hrun).trans ?_⟩
  rfl

end SqlxData.Core
