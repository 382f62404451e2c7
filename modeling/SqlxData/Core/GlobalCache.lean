import SqlxData.Core.Cache
import SqlxData.Lib.Threads
import Mathlib.Algebra.BigOperators.Ring.Finset
import Mathlib.Tactic.Ring

/-!
`GlobalCache` under threads. The cache and its statistics are two concurrent
maps: a read or a write of the first and the record of it in the second are
steps of their own.
-/

namespace SqlxData.Core

open SqlxData.Sqlparser Memo

/-- The statistics of a key, without the moment of the last access. -/
structure CacheStats where
  hits : UInt64
  misses : UInt64
  deriving DecidableEq, Repr

namespace GlobalCache

/-- The statistics of both caches; a key that was never used has no entry. -/
abbrev Stats := CacheName → SqlKey → Option CacheStats

/-- What is recorded of one key. A full counter starts again at 0, where the
build does not check for it. -/
def recordHit : Option CacheStats → CacheStats
  | some s => { s with hits := s.hits + 1 }
  | none => { hits := 1, misses := 0 }

def recordMiss : Option CacheStats → CacheStats
  | some s => { s with misses := s.misses + 1 }
  | none => { hits := 0, misses := 1 }

def note (name : CacheName) (key : SqlKey) (access : Access) (stats : Stats) : Stats :=
  let entry := match access with
    | .hit => recordHit (stats name key)
    | .miss => recordMiss (stats name key)
  Function.update stats name (Function.update (stats name) key (some entry))

/-- The counters of a key, 0 without an entry. -/
def count (stats : Stats) (name : CacheName) (key : SqlKey) : Access → UInt64
  | .hit => (stats name key).elim 0 CacheStats.hits
  | .miss => (stats name key).elim 0 CacheStats.misses

theorem count_note (stats : Stats) (name name' : CacheName) (key key' : SqlKey)
    (access access' : Access) :
    count (note name key access stats) name' key' access' = count stats name' key' access' +
      if name' = name ∧ key' = key ∧ access' = access then 1 else 0 := by
  by_cases hname : name' = name
  · subst hname
    by_cases hkey : key' = key
    · subst hkey
      simp only [count, note, Function.update_self, Option.elim_some, true_and]
      cases access <;> cases access' <;> cases stats name' key' <;>
        simp [recordHit, recordMiss]
    · rw [if_neg fun h => hkey h.2.1]
      simp only [count, note, Function.update_self, Function.update_of_ne hkey, UInt64.add_zero]
  · rw [if_neg fun h => hname h.1]
    simp only [count, note, Function.update_of_ne hname, UInt64.add_zero]

/-! ### Counters without a bound -/

/-- What was recorded, as numbers. -/
abbrev Ledger := CacheName → SqlKey → Access → ℕ

def enter (name : CacheName) (key : SqlKey) (access : Access) (ledger : Ledger) : Ledger :=
  fun name' key' access' => ledger name' key' access' +
    if name' = name ∧ key' = key ∧ access' = access then 1 else 0

/-- The statistics are the ledger, counted with 64 bits. -/
def Keeps (stats : Stats) (ledger : Ledger) : Prop :=
  ∀ name key access, count stats name key access = UInt64.ofNat (ledger name key access)

theorem Keeps.note {stats : Stats} {ledger : Ledger} (h : Keeps stats ledger) (name : CacheName)
    (key : SqlKey) (access : Access) :
    Keeps (note name key access stats) (enter name key access ledger) := by
  intro name' key' access'
  rw [count_note, h, enter, UInt64.ofNat_add]
  split <;> rfl

variable {α : Type}

/-- `GlobalCache::get`, before what is done with the value. -/
def get (name : CacheName) (key : SqlKey)
    (next : Option name.Value → Thread SqlKey CacheName.Value α) :
    Thread SqlKey CacheName.Value α :=
  .lookup name key fun
    | some value => .record name key .hit (next (some value))
    | none => .record name key .miss (next none)

/-- `GlobalCache::insert`, before what is done behind it. -/
def insert (name : CacheName) (key : SqlKey) (value : name.Value)
    (next : Thread SqlKey CacheName.Value α) : Thread SqlKey CacheName.Value α :=
  .store name key value (.record name key .hit next)

end GlobalCache

/-- A computation with the accesses to the caches in their steps. -/
def Cached.thread {α : Type} : Cached α → Thread SqlKey CacheName.Value α
  | .done a => .done a
  | .get name key next => GlobalCache.get name key fun found => Cached.thread (next found)
  | .insert name key value next => GlobalCache.insert name key value (Cached.thread next)

deriving instance DecidableEq for Call

section Calls

variable (D : Display) (parser : Parser) (fingerprint : List Char → SqlKey)

/-- Calls one after the other. -/
def Call.runAll : List Call → Cached (List Answer)
  | [] => return []
  | c :: calls => do
      let answer ← c.run D parser fingerprint
      let answers ← runAll calls
      return answer :: answers

/-- Threads that each make calls, with empty caches and statistics. -/
def startThreads {J : Type} (calls : J → List Call) :
    Pool SqlKey CacheName.Value (List Answer) GlobalCache.Stats J where
  caches := .empty
  stats := fun _ _ => none
  threads := fun j => (Call.runAll D parser fingerprint (calls j)).thread

/-! ### Steps and weights of a call -/

/-- The text parses to one statement. -/
def Parses (sql : List Char) : Prop :=
  ∃ statement, Core.parseSql parser sql = .ok (some statement)

instance (sql : List Char) : Decidable (Parses parser sql) :=
  match h : Core.parseSql parser sql with
  | .ok (some statement) => isTrue ⟨statement, h⟩
  | .ok none => isFalse fun ⟨_, hs⟩ => by rw [h] at hs; cases hs
  | .error _ => isFalse fun ⟨_, hs⟩ => by rw [h] at hs; cases hs

section Totals

variable (weight : CacheName → SqlKey → Access → ℤ)

def parseTotal (sql : List Char) : ℤ :=
  if Parses parser sql then weight .sqlParserCache (fingerprint sql) .hit
  else if sql.isEmpty then 0
  else weight .sqlParserCache (fingerprint sql) .miss

/-- The weights of what a call records. -/
def Call.total : Call → ℤ
  | .parseSql sql => parseTotal parser fingerprint weight sql
  | .buildCountQueryFromSql sql =>
      if Parses parser sql then weight .countSqlCache (fingerprint sql) .hit
      else weight .countSqlCache (fingerprint sql) .miss +
        (weight .sqlParserCache (fingerprint sql) .miss + parseTotal parser fingerprint weight sql)

end Totals

end Calls

/-! ### Threads of computations -/

section Threads

variable {α β : Type} {right : (name : CacheName) → SqlKey → name.Value → Prop}
  {weight : CacheName → SqlKey → Access → ℤ} {p : Cached α} {f : α → Cached β} {a : α} {c : β}
  {b b' : ℤ} {m n : ℕ}

theorem returns_bind (h : p.thread.Returns right weight a b)
    (hf : (f a).thread.Returns right weight c b') :
    (Cached.thread (p >>= f)).Returns right weight c (b + b') := by
  induction p generalizing b with
  | done a' =>
      obtain ⟨rfl, rfl⟩ := h
      rw [zero_add]
      exact hf
  | get name key next ih =>
      obtain ⟨⟨bmiss, rfl, hmiss⟩, hhit⟩ := h
      refine ⟨⟨bmiss + b', add_assoc _ _ _, ih none hmiss⟩, fun value hvalue => ?_⟩
      obtain ⟨bhit, hb, hnext⟩ := hhit value hvalue
      exact ⟨bhit + b', by rw [hb, add_assoc], ih (some value) hnext⟩
  | insert name key value next ih =>
      obtain ⟨hvalue, bnext, rfl, hnext⟩ := h
      exact ⟨hvalue, bnext + b', add_assoc _ _ _, ih hnext⟩

theorem within_bind (h : p.thread.Within m) (hf : ∀ a, (f a).thread.Within n) :
    (Cached.thread (p >>= f)).Within (m + n) := by
  induction p generalizing m with
  | done a => exact (hf a).mono (Nat.le_add_left n m)
  | get name key next ih =>
      obtain ⟨m₁, rfl, hfound⟩ := h
      refine ⟨m₁ + n, by omega, fun found => ?_⟩
      cases found with
      | none =>
          obtain ⟨m₂, rfl, hnext⟩ := hfound none
          exact ⟨m₂ + n, by omega, ih none hnext⟩
      | some value =>
          obtain ⟨m₂, rfl, hnext⟩ := hfound (some value)
          exact ⟨m₂ + n, by omega, ih (some value) hnext⟩
  | insert name key value next ih =>
      obtain ⟨m₁, rfl, m₂, rfl, hnext⟩ := h
      exact ⟨m₂ + 1 + n, by omega, m₂ + n, by omega, ih hnext⟩

end Threads

section Calls

variable {D : Display} {parser : Parser} {fingerprint : List Char → SqlKey}
  {texts : Set (List Char)} {sql : List Char} {weight : CacheName → SqlKey → Access → ℤ}

theorem parseTotal_of_parses (h : Parses parser sql) :
    parseTotal parser fingerprint weight sql = weight .sqlParserCache (fingerprint sql) .hit :=
  if_pos h

theorem parseTotal_of_not_parses (h : ¬ Parses parser sql) (hempty : ¬ sql.isEmpty) :
    parseTotal parser fingerprint weight sql = weight .sqlParserCache (fingerprint sql) .miss := by
  rw [parseTotal, if_neg h, if_neg hempty]

/-- What `parse_sql` records. -/
theorem thread_parseSql (hinj : Set.InjOn fingerprint texts) (hsql : sql ∈ texts)
    (hkept : Parses parser sql → weight .sqlParserCache (fingerprint sql) .miss = 0) :
    (Cached.parseSql parser fingerprint sql).thread.Returns (RightEntry D parser fingerprint texts)
      weight (Core.parseSql parser sql) (parseTotal parser fingerprint weight sql) := by
  by_cases hempty : sql.isEmpty
  · have hresult : Core.parseSql parser sql =
        .error (.parseSql "Empty SQL statement provided.") := if_pos hempty
    have hnot : ¬ Parses parser sql := by
      rintro ⟨statement, h⟩
      rw [hresult] at h
      cases h
    rw [parseTotal, if_neg hnot, if_pos hempty, Cached.parseSql, if_pos hempty, hresult]
    exact ⟨rfl, rfl⟩
  -- a text that does not parse records its miss and nothing else
  have hfails : ∀ {result}, Core.parseSql parser sql = result →
      (∀ statement, result ≠ .ok (some statement)) →
      (Thread.record .sqlParserCache (fingerprint sql) .miss (.done result)).Returns
        (RightEntry D parser fingerprint texts) weight result
        (parseTotal parser fingerprint weight sql) := by
    rintro result rfl hresult
    rw [parseTotal_of_not_parses (fun ⟨statement, h⟩ => hresult statement h) hempty]
    exact ⟨0, (add_zero _).symm, rfl, rfl⟩
  rw [Cached.parseSql, if_neg hempty]
  refine ⟨?_, fun cached hcached => ?_⟩
  · cases hstatements : parser sql with
    | none =>
        have hresult : Core.parseSql parser sql = .ok none := by
          rw [Core.parseSql, if_neg hempty, hstatements]
        rw [hresult]
        exact hfails hresult fun statement h => by cases h
    | some statements =>
        by_cases hmany : statements.length > 1
        · have hresult : Core.parseSql parser sql = .error (.parseSql
              "Multiple SQL statements detected; only one statement is allowed.") := by
            rw [Core.parseSql, if_neg hempty, hstatements]
            exact if_pos hmany
          rw [hresult]
          simp only [if_pos hmany]
          exact hfails hresult fun statement h => by cases h
        simp only [if_neg hmany]
        cases hstatement : statements.head? with
        | none =>
            have hresult : Core.parseSql parser sql =
                .error (.parseSql "No SQL statement found after parsing.") := by
              rw [Core.parseSql, if_neg hempty, hstatements]
              simp only [if_neg hmany, hstatement]
            rw [hresult]
            exact hfails hresult fun statement h => by cases h
        | some statement =>
            have hresult : Core.parseSql parser sql = .ok (some statement) := by
              rw [Core.parseSql, if_neg hempty, hstatements]
              simp only [if_neg hmany, hstatement]
            have hparses : Parses parser sql := ⟨statement, hresult⟩
            rw [hresult, parseTotal_of_parses hparses]
            refine ⟨_, ?_, ⟨sql, hsql, rfl, hresult⟩, 0, (add_zero _).symm, rfl, rfl⟩
            rw [hkept hparses, zero_add]
  · have hparse := parsed_of_right hinj hsql hcached
    rw [parseTotal_of_parses ⟨cached, hparse⟩, hparse]
    exact ⟨0, (add_zero _).symm, rfl, rfl⟩

theorem parsedForCount_of_not_parses (h : ¬ Parses parser sql) {statement : Statement} :
    parsedForCount parser sql ≠ .ok statement :=
  fun hstatement => h ⟨statement, parsed_of_parsedForCount hstatement⟩

theorem thread_statementForCount (hinj : Set.InjOn fingerprint texts) (hsql : sql ∈ texts)
    (hkept : Parses parser sql → weight .sqlParserCache (fingerprint sql) .miss = 0) :
    (Cached.statementForCount parser fingerprint sql).thread.Returns
      (RightEntry D parser fingerprint texts) weight (parsedForCount parser sql)
      (if Parses parser sql then weight .sqlParserCache (fingerprint sql) .hit
        else weight .sqlParserCache (fingerprint sql) .miss +
          parseTotal parser fingerprint weight sql) := by
  refine ⟨⟨parseTotal parser fingerprint weight sql + 0, ?_,
    returns_bind (thread_parseSql hinj hsql hkept) ?_⟩, fun cachedAst hcached => ?_⟩
  · rw [add_zero]
    split
    · rename_i hparses
      rw [hkept hparses, zero_add, parseTotal_of_parses hparses]
    · rfl
  · rw [parsedForCount]
    rcases Core.parseSql parser sql with err | _ | statement <;> exact ⟨rfl, rfl⟩
  · have hparse := parsed_of_right hinj hsql hcached
    rw [if_pos ⟨cachedAst, hparse⟩, parsedForCount, hparse]
    exact ⟨0, (add_zero _).symm, rfl, rfl⟩

/-- What `build_count_query_from_sql` records. -/
theorem thread_buildCountQueryFromSql (hinj : Set.InjOn fingerprint texts) (hsql : sql ∈ texts)
    (hkept : Parses parser sql → weight .sqlParserCache (fingerprint sql) .miss = 0 ∧
      weight .countSqlCache (fingerprint sql) .miss +
        weight .sqlParserCache (fingerprint sql) .hit = 0) :
    (Cached.buildCountQueryFromSql D parser fingerprint sql).thread.Returns
      (RightEntry D parser fingerprint texts) weight (countQueryFromSql D parser sql)
      ((Call.buildCountQueryFromSql sql).total parser fingerprint weight) := by
  have hstatement := thread_statementForCount (D := D) hinj hsql fun h => (hkept h).1
  rw [countQueryFromSql, Call.total]
  refine ⟨?_, ?_⟩
  · by_cases hparses : Parses parser sql
    · obtain ⟨statement, hresult⟩ := hparses
      have hparsed : parsedForCount parser sql = .ok statement := by
        rw [parsedForCount, hresult]
      rw [if_pos ⟨statement, hresult⟩] at hstatement ⊢
      rw [hparsed] at hstatement ⊢
      refine ⟨_, ?_, returns_bind hstatement ⟨⟨sql, hsql, rfl, statement, hresult, rfl⟩, _,
        (add_zero (weight .countSqlCache (fingerprint sql) .hit)).symm, rfl, rfl⟩⟩
      rw [← add_assoc, (hkept ⟨statement, hresult⟩).2, zero_add]
    · rw [if_neg hparses] at hstatement ⊢
      cases hparsed : parsedForCount parser sql with
      | ok statement => exact absurd hparsed (parsedForCount_of_not_parses hparses)
      | error err =>
          rw [hparsed] at hstatement
          exact ⟨_, by rw [add_zero], returns_bind hstatement ⟨rfl, rfl⟩⟩
  · rintro countSql ⟨sql', hsql', hkey, statement, hparse, rfl⟩
    obtain rfl := hinj hsql' hsql hkey
    rw [if_pos ⟨statement, hparse⟩, parsedForCount, hparse]
    exact ⟨0, (add_zero _).symm, rfl, rfl⟩

/-- What the calls of a thread answer and record. -/
theorem thread_runAll (hinj : Set.InjOn fingerprint texts)
    (hkept : ∀ sql ∈ texts, Parses parser sql → weight .sqlParserCache (fingerprint sql) .miss = 0 ∧
      weight .countSqlCache (fingerprint sql) .miss +
        weight .sqlParserCache (fingerprint sql) .hit = 0)
    {calls : List Call} (hcalls : ∀ c ∈ calls, c.sql ∈ texts) :
    (Call.runAll D parser fingerprint calls).thread.Returns (RightEntry D parser fingerprint texts)
      weight (calls.map (Call.answer D parser))
      (calls.map (Call.total parser fingerprint weight)).sum := by
  induction calls with
  | nil => exact ⟨rfl, rfl⟩
  | cons c calls ih =>
      obtain ⟨hc, hcalls⟩ := List.forall_mem_cons.mp hcalls
      have hrun : (c.run D parser fingerprint).thread.Returns
          (RightEntry D parser fingerprint texts) weight (c.answer D parser)
          (c.total parser fingerprint weight + 0) := by
        cases c with
        | parseSql sql =>
            exact returns_bind (thread_parseSql hinj hc fun h => (hkept sql hc h).1) ⟨rfl, rfl⟩
        | buildCountQueryFromSql sql =>
            exact returns_bind (thread_buildCountQueryFromSql hinj hc (hkept sql hc)) ⟨rfl, rfl⟩
      rw [add_zero] at hrun
      have hrest := returns_bind (ih hcalls)
        (f := fun answers => return c.answer D parser :: answers) ⟨rfl, rfl⟩
      rw [add_zero] at hrest
      rw [List.map_cons, List.map_cons, List.sum_cons]
      exact returns_bind hrun hrest

/-! ### Lengths -/

theorem within_parseSql : (Cached.parseSql parser fingerprint sql).thread.Within 4 := by
  rw [Cached.parseSql]
  split
  · trivial
  refine ⟨3, rfl, fun found => ?_⟩
  cases found with
  | some cached => exact ⟨2, rfl, trivial⟩
  | none =>
      refine ⟨2, rfl, ?_⟩
      dsimp only
      split
      · trivial
      · split
        · trivial
        · split
          · trivial
          · exact ⟨1, rfl, 0, rfl, trivial⟩

theorem within_statementForCount :
    (Cached.statementForCount parser fingerprint sql).thread.Within 6 := by
  refine ⟨5, rfl, fun found => ?_⟩
  cases found with
  | some cachedAst => exact ⟨4, rfl, trivial⟩
  | none =>
      refine ⟨4, rfl, within_bind (n := 0) within_parseSql fun result => ?_⟩
      rcases result with err | _ | statement <;> trivial

theorem within_buildCountQueryFromSql :
    (Cached.buildCountQueryFromSql D parser fingerprint sql).thread.Within 10 := by
  refine ⟨9, rfl, fun found => ?_⟩
  cases found with
  | some cachedCountSql => exact ⟨8, rfl, trivial⟩
  | none =>
      refine ⟨8, rfl, within_bind (n := 2) within_statementForCount fun result => ?_⟩
      cases result with
      | error err => trivial
      | ok statement => exact ⟨1, rfl, 0, rfl, trivial⟩

theorem within_runAll (calls : List Call) :
    (Call.runAll D parser fingerprint calls).thread.Within (10 * calls.length) := by
  induction calls with
  | nil => trivial
  | cons c calls ih =>
      have hrun : (c.run D parser fingerprint).thread.Within 10 := by
        cases c with
        | parseSql sql =>
            have h : (Call.run D parser fingerprint (.parseSql sql)).thread.Within 4 :=
              within_bind (n := 0) within_parseSql fun _ => trivial
            exact h.mono (by omega)
        | buildCountQueryFromSql sql =>
            exact within_bind (n := 0) within_buildCountQueryFromSql fun _ => trivial
      rw [List.length_cons, Nat.mul_succ, Nat.add_comm]
      refine within_bind hrun fun answer => ?_
      exact within_bind (n := 0) (f := fun answers => return answer :: answers) ih fun _ => trivial

/-! ### Threads together -/

/-- The counters of one key, each times its weight. -/
def tally (weight : CacheName → Access → ℤ) (key : SqlKey) (ledger : GlobalCache.Ledger) : ℤ :=
  weight .sqlParserCache .hit * ledger .sqlParserCache key .hit +
  weight .sqlParserCache .miss * ledger .sqlParserCache key .miss +
  weight .countSqlCache .hit * ledger .countSqlCache key .hit +
  weight .countSqlCache .miss * ledger .countSqlCache key .miss

def keyWeight (weight : CacheName → Access → ℤ) (key : SqlKey) (name : CacheName) (key' : SqlKey)
    (access : Access) : ℤ :=
  if key' = key then weight name access else 0

theorem tally_enter (weight : CacheName → Access → ℤ) (key : SqlKey) (name : CacheName)
    (key' : SqlKey) (access : Access) (ledger : GlobalCache.Ledger) :
    tally weight key (GlobalCache.enter name key' access ledger) =
      tally weight key ledger + keyWeight weight key name key' access := by
  simp only [tally, GlobalCache.enter, keyWeight]
  by_cases hkey : key' = key
  · subst hkey
    cases name <;> cases access <;> simp <;> ring
  · simp [Ne.symm hkey, hkey]

/-- Calls on other texts do not count. -/
theorem total_keyWeight (hinj : Set.InjOn fingerprint texts) (hsql : sql ∈ texts)
    (weight : CacheName → Access → ℤ) {c : Call} (hc : c.sql ∈ texts) :
    c.total parser fingerprint (keyWeight weight (fingerprint sql)) =
      if c.sql = sql then c.total parser fingerprint fun name _ => weight name else 0 := by
  by_cases h : c.sql = sql
  · rw [if_pos h]
    cases c <;> obtain rfl := h <;> simp [Call.total, parseTotal, keyWeight, Call.sql]
  · have hkey : fingerprint c.sql ≠ fingerprint sql := fun hkey => h (hinj hc hsql hkey)
    rw [if_neg h]
    cases c <;> rw [Call.sql] at hkey <;> simp [Call.total, parseTotal, keyWeight, hkey]

theorem sum_total (weight : CacheName → SqlKey → Access → ℤ) (calls : List Call) :
    (calls.map fun c => if c.sql = sql then c.total parser fingerprint weight else 0).sum =
      calls.count (.parseSql sql) * (Call.parseSql sql).total parser fingerprint weight +
      calls.count (.buildCountQueryFromSql sql) *
        (Call.buildCountQueryFromSql sql).total parser fingerprint weight := by
  induction calls with
  | nil => simp
  | cons c calls ih =>
      rw [List.map_cons, List.sum_cons, ih, List.count_cons, List.count_cons]
      cases c with
      | parseSql sql' =>
          by_cases h : sql' = sql
          · subst h
            simp [Call.sql]
            ring
          · simp [Call.sql, h]
      | buildCountQueryFromSql sql' =>
          by_cases h : sql' = sql
          · subst h
            simp [Call.sql]
            ring
          · simp [Call.sql, h]

variable {J : Type} [DecidableEq J] [Fintype J] {calls : J → List Call} {n : ℕ}
  {P : Pool SqlKey CacheName.Value (List Answer) GlobalCache.Stats J}

/-- The texts of the calls. -/
def textsOf (calls : J → List Call) : Set (List Char) := {sql | ∃ j, ∃ c ∈ calls j, c.sql = sql}

omit [DecidableEq J] in
theorem balanced_start (hinj : Set.InjOn fingerprint (textsOf calls))
    (weight : CacheName → SqlKey → Access → ℤ) {σ : Type} (stats : σ) (value : σ → ℤ)
    (hvalue : value stats = 0)
    (hkept : ∀ sql ∈ textsOf calls, Parses parser sql →
      weight .sqlParserCache (fingerprint sql) .miss = 0 ∧
      weight .countSqlCache (fingerprint sql) .miss +
        weight .sqlParserCache (fingerprint sql) .hit = 0) :
    Pool.Balanced (RightEntry D parser fingerprint (textsOf calls)) weight value
      (fun j => (calls j).map (Call.answer D parser))
      (∑ j, ((calls j).map (Call.total parser fingerprint weight)).sum)
      ⟨.empty, stats, (startThreads D parser fingerprint calls).threads⟩ := by
  refine ⟨Store.right_empty, _, fun j => thread_runAll hinj hkept fun c hc => ⟨j, c, hc, rfl⟩, ?_⟩
  exact (congrArg (· + _) hvalue).trans (zero_add _)

/-- In every interleaving of threads that call both functions, whatever entries
the caches lose at whatever moment: a thread that is done has the answers its
calls get without caches, the run has at most ten steps a call, and it goes on
to a run where all threads are done. -/
theorem interleaved_answers (hinj : Set.InjOn fingerprint (textsOf calls))
    (hrun : Pool.Runs GlobalCache.note n (startThreads D parser fingerprint calls) P) :
    (∀ j answers, P.threads j = .done answers → answers = (calls j).map (Call.answer D parser)) ∧
    n ≤ ∑ j, 10 * (calls j).length ∧
    ∃ m P', Pool.Runs GlobalCache.note m P P' ∧
      ∀ j, P'.threads j = .done ((calls j).map (Call.answer D parser)) := by
  have hstart := @balanced_start D parser _ _ _ _ hinj (fun _ _ _ => 0) GlobalCache.Stats
    (fun _ _ => none) (fun _ => 0) rfl fun _ _ _ => ⟨rfl, add_zero 0⟩
  have hbalanced := hstart.runs (fun _ _ _ _ => (add_zero 0).symm) hrun
  have hbound : (startThreads D parser fingerprint calls).Within (∑ j, 10 * (calls j).length) :=
    ⟨_, fun j => within_runAll (calls j), rfl⟩
  obtain ⟨k, hk, hwithin⟩ := hbound.runs hrun
  refine ⟨fun j answers hj => ?_, by omega, ?_⟩
  · obtain ⟨-, b, hreturns, -⟩ := hbalanced
    have ht := hreturns j
    rw [hj] at ht
    exact ht.1
  · obtain ⟨m, P', hrun', hdone⟩ := hwithin.exists_finished GlobalCache.note
    choose result hresult using hdone
    have hfinished := (hbalanced.runs (fun _ _ _ _ => (add_zero 0).symm) hrun').finished hresult
    exact ⟨m, P', hrun', fun j => by rw [hresult j, hfinished.1]⟩

def weights (parserHit parserMiss countHit countMiss : ℤ) : CacheName → Access → ℤ
  | .sqlParserCache, .hit => parserHit
  | .sqlParserCache, .miss => parserMiss
  | .countSqlCache, .hit => countHit
  | .countSqlCache, .miss => countMiss

/-- What the counters of a text say when all threads are done. -/
theorem tally_finished (hinj : Set.InjOn fingerprint (textsOf calls)) (hsql : sql ∈ textsOf calls)
    (weight : CacheName → Access → ℤ)
    (hkept : Parses parser sql →
      weight .sqlParserCache .miss = 0 ∧
        weight .countSqlCache .miss + weight .sqlParserCache .hit = 0)
    {caches : Store SqlKey CacheName.Value} {ledger : GlobalCache.Ledger}
    (hrun : Pool.Runs GlobalCache.enter n
      ⟨.empty, fun _ _ _ => 0, (startThreads D parser fingerprint calls).threads⟩
      ⟨caches, ledger, P.threads⟩)
    (hdone : ∀ j, ∃ answers, P.threads j = .done answers) :
    tally weight (fingerprint sql) ledger =
      (∑ j, (calls j).count (.parseSql sql) : ℕ) *
        (Call.parseSql sql).total parser fingerprint (fun name _ => weight name) +
      (∑ j, (calls j).count (.buildCountQueryFromSql sql) : ℕ) *
        (Call.buildCountQueryFromSql sql).total parser fingerprint fun name _ => weight name := by
  have hkept' : ∀ sql' ∈ textsOf calls, Parses parser sql' →
      keyWeight weight (fingerprint sql) .sqlParserCache (fingerprint sql') .miss = 0 ∧
      keyWeight weight (fingerprint sql) .countSqlCache (fingerprint sql') .miss +
        keyWeight weight (fingerprint sql) .sqlParserCache (fingerprint sql') .hit = 0 := by
    intro sql' hsql' hparses
    by_cases hkey : fingerprint sql' = fingerprint sql
    · obtain rfl := hinj hsql' hsql hkey
      simpa only [keyWeight, if_true] using hkept hparses
    · simp only [keyWeight, if_neg hkey, add_zero, and_self]
  have hstart := balanced_start (D := D) hinj _ (fun _ _ _ => 0) (tally weight (fingerprint sql))
    (by simp [tally]) hkept'
  have hbalanced := hstart.runs (tally_enter weight (fingerprint sql)) hrun
  choose result hresult using hdone
  rw [(hbalanced.finished hresult).2]
  have hthread : ∀ j, ((calls j).map
      (Call.total parser fingerprint (keyWeight weight (fingerprint sql)))).sum =
        ((calls j).count (.parseSql sql) : ℤ) *
          (Call.parseSql sql).total parser fingerprint (fun name _ => weight name) +
        ((calls j).count (.buildCountQueryFromSql sql) : ℤ) *
          (Call.buildCountQueryFromSql sql).total parser fingerprint fun name _ => weight name := by
    intro j
    rw [← sum_total, List.map_congr_left fun c hc =>
      total_keyWeight hinj hsql weight ⟨j, c, hc, rfl⟩]
  rw [Finset.sum_congr rfl fun j _ => hthread j, Finset.sum_add_distrib, ← Finset.sum_mul,
    ← Finset.sum_mul, Nat.cast_sum, Nat.cast_sum]

omit [Fintype J] in
/-- In a run of fewer than `2 ^ 64` steps no counter is full: the statistics
are a ledger of the run. -/
theorem exists_ledger (hsteps : n < 2 ^ 64)
    (hrun : Pool.Runs GlobalCache.note n (startThreads D parser fingerprint calls) P) :
    ∃ ledger : GlobalCache.Ledger,
      Pool.Runs GlobalCache.enter n
        ⟨.empty, fun _ _ _ => 0, (startThreads D parser fingerprint calls).threads⟩
        ⟨P.caches, ledger, P.threads⟩ ∧
      ∀ name key access,
        (GlobalCache.count P.stats name key access).toNat = ledger name key access := by
  have hstart : GlobalCache.Keeps (startThreads D parser fingerprint calls).stats
      fun _ _ _ => 0 := by
    intro name key access
    cases access <;> rfl
  have henter : ∀ name key access stats ledger, GlobalCache.Keeps stats ledger →
      GlobalCache.Keeps (GlobalCache.note name key access stats)
        (GlobalCache.enter name key access ledger) :=
    fun name key access _ _ h => h.note name key access
  obtain ⟨ledger, hkeeps, hledger⟩ := Pool.Runs.refine henter hrun hstart
  refine ⟨ledger, hledger, fun name key access => ?_⟩
  have hbound := Pool.Runs.counter_le (fun ledger => ledger name key access)
    (fun name' key' access' ledger => by
      show ledger name key access + _ ≤ ledger name key access + 1
      split <;> omega) hledger
  simp only [Nat.zero_add] at hbound
  rw [hkeeps name key access, UInt64.toNat_ofNat']
  omega

/-- The counters of a text when all threads are done, whatever the
interleaving and the lost entries were. An insertion counts as a hit: where the
text parses, the hits of the count queries are the calls for it, and the hits of
the statements are the calls that parsed it and the misses of the count queries.
Where it does not, nothing is ever hit, and a count query misses its statement
twice. -/
theorem interleaved_statistics (hinj : Set.InjOn fingerprint (textsOf calls))
    (hsql : sql ∈ textsOf calls) (hsteps : n < 2 ^ 64)
    (hrun : Pool.Runs GlobalCache.note n (startThreads D parser fingerprint calls) P)
    (hdone : ∀ j, ∃ answers, P.threads j = .done answers) :
    let count := fun name access =>
      (GlobalCache.count P.stats name (fingerprint sql) access).toNat
    let parsed := ∑ j, (calls j).count (.parseSql sql)
    let counted := ∑ j, (calls j).count (.buildCountQueryFromSql sql)
    (Parses parser sql →
      count .countSqlCache .hit = counted ∧
      count .sqlParserCache .hit = parsed + count .countSqlCache .miss) ∧
    (¬ Parses parser sql →
      count .countSqlCache .hit = 0 ∧ count .sqlParserCache .hit = 0 ∧
      count .countSqlCache .miss = counted ∧
      count .sqlParserCache .miss = if sql.isEmpty then counted else parsed + 2 * counted) := by
  intro count parsed counted
  obtain ⟨ledger, hledger, hcount⟩ := exists_ledger hsteps hrun
  have htally := fun a b c d hkept =>
    tally_finished (D := D) hinj hsql (weights a b c d) hkept hledger hdone
  simp only [tally, weights, Call.total, parseTotal] at htally
  simp only [count, parsed, counted, hcount]
  refine ⟨fun hparses => ?_, fun hnot => ?_⟩
  · simp only [if_pos hparses] at htally
    have hhits := htally 0 0 1 0 fun _ => ⟨rfl, rfl⟩
    have hparser := htally 1 0 0 (-1) fun _ => ⟨rfl, rfl⟩
    omega
  · simp only [if_neg hnot] at htally
    have hcountHit := htally 0 0 1 0 fun h => absurd h hnot
    have hparserHit := htally 1 0 0 0 fun h => absurd h hnot
    have hcountMiss := htally 0 0 0 1 fun h => absurd h hnot
    have hparserMiss := htally 0 1 0 0 fun h => absurd h hnot
    by_cases hempty : sql.isEmpty
    · simp only [if_pos hempty] at hcountHit hparserHit hcountMiss hparserMiss ⊢
      omega
    · simp only [if_neg hempty] at hcountHit hparserHit hcountMiss hparserMiss ⊢
      omega

end Calls

/-! ### Two threads -/

private def users : Query :=
  Reference.simpleQuery (.select (Reference.simpleSelect [.wildcard] "users" none))

/-- One thread parses the query, the other a text that fails, and counts. -/
private def twoThreads : Bool → List Call
  | true => [.parseSql (Reference.text users)]
  | false => [.parseSql ['x'], .buildCountQueryFromSql (Reference.text users)]

private def lengthFingerprint (sql : List Char) : SqlKey := UInt64.ofNat sql.length

private theorem twoThreads_apart : Set.InjOn lengthFingerprint (textsOf twoThreads) := by
  have htexts : ∀ text ∈ textsOf twoThreads, text = Reference.text users ∨ text = ['x'] := by
    rintro _ ⟨j, c, hc, rfl⟩
    cases j
    · rcases List.mem_pair.mp hc with rfl | rfl
      · exact .inr rfl
      · exact .inl rfl
    · obtain rfl := List.mem_singleton.mp hc
      exact .inl rfl
  have hapart : lengthFingerprint (Reference.text users) ≠ lengthFingerprint ['x'] := by decide
  intro text htext text' htext' h
  rcases htexts text htext with rfl | rfl <;> rcases htexts text' htext' with rfl | rfl
  · rfl
  · exact absurd h hapart
  · exact absurd h.symm hapart
  · rfl

theorem interleaved_answers_two :
    ∃ n P, Pool.Runs GlobalCache.note n (startThreads Display.reference (Reference.parserOf users)
        lengthFingerprint twoThreads) P ∧
      P.threads true = .done [.parsed (.ok (some (.query users)))] ∧
      P.threads false =
        .done [.parsed (.ok none), .countSql (.ok "SELECT COUNT(*) FROM users".toList)] := by
  obtain ⟨-, -, n, P, hrun, hdone⟩ := @interleaved_answers Display.reference
    (Reference.parserOf users) _ _ _ _ _ _ _ twoThreads_apart .refl
  exact ⟨n, P, hrun, hdone true, hdone false⟩

theorem interleaved_statistics_two :
    ∃ n P, Pool.Runs GlobalCache.note n (startThreads Display.reference (Reference.parserOf users)
        lengthFingerprint twoThreads) P ∧
      let count := GlobalCache.count P.stats
      (count .countSqlCache (lengthFingerprint (Reference.text users)) .hit).toNat = 1 ∧
      (count .sqlParserCache (lengthFingerprint ['x']) .miss).toNat = 1 := by
  have hbound : (startThreads Display.reference (Reference.parserOf users) lengthFingerprint
      twoThreads).Within (∑ j, 10 * (twoThreads j).length) :=
    ⟨_, fun j => within_runAll (twoThreads j), rfl⟩
  obtain ⟨n, P, hrun, hdone⟩ := hbound.exists_finished GlobalCache.note
  obtain ⟨k, hk, -⟩ := hbound.runs hrun
  have hsteps : n < 2 ^ 64 := by
    have hsum : ∑ j, 10 * (twoThreads j).length = 30 := by rfl
    omega
  have husers : Parses (Reference.parserOf users) (Reference.text users) := ⟨.query users, by rfl⟩
  have hother : ¬ Parses (Reference.parserOf users) ['x'] := by decide
  obtain ⟨h, -⟩ := interleaved_statistics twoThreads_apart
    ⟨true, .parseSql (Reference.text users), List.mem_singleton_self _, rfl⟩ hsteps hrun hdone
  obtain ⟨-, h'⟩ := interleaved_statistics twoThreads_apart
    ⟨false, .parseSql ['x'], List.mem_cons_self, rfl⟩ hsteps hrun hdone
  refine ⟨n, P, hrun, (h husers).1.trans (by decide), ?_⟩
  obtain ⟨-, -, -, hmiss⟩ := h' hother
  exact hmiss.trans (by decide)

end SqlxData.Core
