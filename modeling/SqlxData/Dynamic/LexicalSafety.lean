import SqlxData.Dynamic.Builder
import SqlxData.Sqlparser.Reference

/-!
The placeholder passes and the words of the text. The passes run over
characters; a `$k` inside a string literal, a quoted identifier or a comment is
a placeholder to them like any other.
-/

namespace SqlxData.Dynamic

open SqlxData.Sqlparser SqlxData.Core NumberedText

/-! ### Lexemes -/

inductive LexemeKind
  | code
  /-- A string literal or a quoted identifier. -/
  | quoted
  | comment
  deriving DecidableEq

structure Lexeme where
  kind : LexemeKind
  text : List Char
  deriving DecidableEq

def spellLexemes (ls : List Lexeme) : List Char := ls.flatMap Lexeme.text

/-- No lexeme that ends inside a number or behind a `$` runs into a digit of
the next one. -/
def Apart : List Lexeme → Prop
  | [] => True
  | l :: ls => (OpenEnd l.text → ¬StartsWithDigit (spellLexemes ls)) ∧ Apart ls

/-- The tokenizer of a dialect, as far as it tells code from quoted text and
comments. -/
structure Lexer where
  lex : List Char → List Lexeme
  spell_lex : ∀ s, spellLexemes (lex s) = s

/-- In what the parser accepts and in what is printed, no number stands right
behind a lexeme that a digit could continue. -/
structure ApartLexer (parser : Parser) (D : Display) extends Lexer where
  apart_parsed : ∀ s st, parseSql parser s = .ok (some st) → Apart (lex s)
  apart_printed : ∀ st, Apart (lex (render (D.statement st)))

theorem pieces_spellLexemes {ls : List Lexeme} (h : Apart ls) :
    pieces usizeBound (spellLexemes ls) = ls.flatMap fun l => pieces usizeBound l.text := by
  induction ls with
  | nil => rfl
  | cons l ls ih =>
      obtain ⟨hl, hls⟩ := h
      rw [List.flatMap_cons, ← ih hls, ← pieces_append_of_apart hl]
      rfl

/-! ### Passes that spare lexemes -/

/-- Quoted text or a comment. -/
def Lexeme.isInert (l : Lexeme) : Bool := l.kind ≠ .code

section Sparing

variable (spared : Lexeme → Bool)

/-- The numbers of the placeholders outside of the spared lexemes, from left to
right. -/
def numbersSparing (ls : List Lexeme) : List ℕ :=
  (ls.filter (!spared ·)).flatMap fun l => placeholderNumbers l.text

/-- Renumbering that leaves the spared lexemes alone. -/
def Lexeme.renumber (f : ℕ → ℕ) (l : Lexeme) : Lexeme :=
  if spared l then l else { l with text := spell (relabel f (pieces usizeBound l.text)) }

def renumberSparing {β : Type} (bindValues : List β) (originalPlaceholderNumbers : List ℕ)
    (maxExistingPlaceholder : ℕ) (ls : List Lexeme) : List Char × List β :=
  let order := firstUse [] (numbersSparing spared ls)
  let picked := order.filterMap
    (pickedBind bindValues originalPlaceholderNumbers maxExistingPlaceholder)
  if picked.isEmpty then (spellLexemes ls, bindValues)
  else (spellLexemes (ls.map (Lexeme.renumber spared (rank order))), picked)

/-- `build_dynamic_sql` with a first pass that reads the code of the base text
only and a second one that spares lexemes of the printed text. -/
def buildSparing (L : Lexer) (cfg : Config) (D : Display) (baseSql : List Char) (q : Query)
    (params : Params) (initialBinds : List FilterValue) : Except SqlxError BuiltSql := do
  let (bindValues, trimmedPositions) :=
    if params.limit.isSome || params.offset.isSome then
      trimLimitOffsetPlaceholderBinds q initialBinds
    else
      (initialBinds, [])
  let originalNumbers :=
    (firstUse [] (numbersSparing Lexeme.isInert (L.lex baseSql))).filter (· ∉ trimmedPositions)
  let maxExisting := maxPlaceholder originalNumbers
  let (statement, bindValues) ← dynamicStatement cfg (.query q) params bindValues maxExisting
  let (sql, bindValues) := renumberSparing spared bindValues originalNumbers maxExisting
    (L.lex (render (D.statement statement)))
  .ok ⟨sql, bindValues⟩

end Sparing

/-! ### What the passes count -/

/-- The passes find a placeholder in quoted text or in a comment. -/
def Lexeme.Hides (l : Lexeme) : Prop := l.isInert ∧ placeholderNumbers l.text ≠ []

instance : DecidablePred Lexeme.Hides := fun l =>
  inferInstanceAs (Decidable (l.isInert = true ∧ placeholderNumbers l.text ≠ []))

section Counting

variable {parser : Parser} {D : Display} (L : ApartLexer parser D) {s : List Char}

theorem ApartLexer.pieces_lex (hs : Apart (L.lex s)) :
    pieces usizeBound s = (L.lex s).flatMap fun l => pieces usizeBound l.text := by
  have hpieces := pieces_spellLexemes hs
  rwa [L.spell_lex] at hpieces

theorem placeholderNumbers_lex (hs : Apart (L.lex s)) :
    placeholderNumbers s = (L.lex s).flatMap fun l => placeholderNumbers l.text := by
  rw [placeholderNumbers, L.pieces_lex hs, numbers, List.filterMap_flatMap]
  rfl

variable {spared : Lexeme → Bool}

@[simp] theorem numbersSparing_cons (l : Lexeme) (ls : List Lexeme) :
    numbersSparing spared (l :: ls) =
      (if spared l then [] else placeholderNumbers l.text) ++ numbersSparing spared ls := by
  by_cases hl : spared l <;> simp [numbersSparing, hl]

theorem length_numbersSparing_le (ls : List Lexeme) :
    (numbersSparing spared ls).length ≤
      (ls.flatMap fun l => placeholderNumbers l.text).length := by
  induction ls with
  | nil => simp [numbersSparing]
  | cons l ls ih =>
      rw [numbersSparing_cons, List.flatMap_cons, List.length_append, List.length_append]
      split_ifs
      · simp only [List.length_nil]
        omega
      · omega

theorem flatMap_eq_numbersSparing_iff (ls : List Lexeme) :
    (ls.flatMap fun l => placeholderNumbers l.text) = numbersSparing spared ls ↔
      ∀ l ∈ ls, spared l → placeholderNumbers l.text = [] := by
  induction ls with
  | nil => simp [numbersSparing]
  | cons l ls ih =>
      rw [numbersSparing_cons, List.flatMap_cons, List.forall_mem_cons, ← ih]
      by_cases hl : spared l
      · have hle := @length_numbersSparing_le spared ls
        rw [if_pos hl, List.nil_append]
        constructor
        · intro h
          -- without the spared lexemes there are no more numbers than in the rest of the text
          have hlength := congrArg List.length h
          rw [List.length_append] at hlength
          have hnone : placeholderNumbers l.text = [] := List.length_eq_zero_iff.mp (by omega)
          rw [hnone, List.nil_append] at h
          exact ⟨fun _ => hnone, h⟩
        · rintro ⟨hnone, h⟩
          rw [hnone hl, h, List.nil_append]
      · simp [hl]

/-- The passes find no number in a spared lexeme exactly when they count what
stands outside of them. -/
theorem placeholderNumbers_eq_sparing_iff (hs : Apart (L.lex s)) :
    placeholderNumbers s = numbersSparing spared (L.lex s) ↔
      ∀ l ∈ L.lex s, spared l → placeholderNumbers l.text = [] := by
  rw [placeholderNumbers_lex L hs, flatMap_eq_numbersSparing_iff]

theorem forall_not_hides_iff (ls : List Lexeme) :
    (∀ l ∈ ls, ¬l.Hides) ↔ ∀ l ∈ ls, l.isInert → placeholderNumbers l.text = [] := by
  simp only [Lexeme.Hides, not_and, not_not]

theorem spell_relabel_lexeme (f : ℕ → ℕ) {l : Lexeme}
    (h : spared l → placeholderNumbers l.text = []) :
    spell (relabel f (pieces usizeBound l.text)) = (l.renumber spared f).text := by
  rw [Lexeme.renumber]
  split_ifs with hspared
  · have hnone : numbers (pieces usizeBound l.text) = [] := h hspared
    rw [relabel_id (by simp [hnone]), spell_pieces_of_no_numbers hnone]
  · rfl

/-- On a text without a number in its spared lexemes the pass spares them. -/
theorem renumber_eq_renumberSparing {β : Type} (bindValues : List β)
    (originalPlaceholderNumbers : List ℕ) (maxExistingPlaceholder : ℕ) {printed : List Char}
    (hprinted : Apart (L.lex printed))
    (h : ∀ l ∈ L.lex printed, spared l → placeholderNumbers l.text = []) :
    renumberNumberedPlaceholdersWithBinds bindValues originalPlaceholderNumbers
        maxExistingPlaceholder printed =
      renumberSparing spared bindValues originalPlaceholderNumbers maxExistingPlaceholder
        (L.lex printed) := by
  have horder : numberOrder printed = firstUse [] (numbersSparing spared (L.lex printed)) := by
    rw [numberOrder, (placeholderNumbers_eq_sparing_iff L hprinted).mpr h]
  have htext (f : ℕ → ℕ) : spell (relabel f (pieces usizeBound printed)) =
      spellLexemes ((L.lex printed).map (Lexeme.renumber spared f)) := by
    rw [L.pieces_lex hprinted, relabel, List.map_flatMap, NumberedText.spell, List.flatMap_assoc, spellLexemes,
      List.flatMap_map]
    exact List.flatMap_congr fun l hl => spell_relabel_lexeme f (h l hl)
  rw [renumberNumberedPlaceholdersWithBinds_eq, renumberSparing, ← horder, L.spell_lex]
  simp only [htext]

end Counting

/-! ### The build -/

/-- The quoted text and the comments that stand in the base text. -/
def fromBase (L : Lexer) (baseSql : List Char) (l : Lexeme) : Bool :=
  l.isInert && decide (l ∈ L.lex baseSql)

/-- The printed statement has quoted text that hides a placeholder only if the
base text has one. -/
def HidesNothingNew (L : Lexer) (D : Display) (baseSql : List Char) (statement : Statement) :
    Prop :=
  (∃ l ∈ L.lex (render (D.statement statement)), l.Hides) → ∃ l ∈ L.lex baseSql, l.Hides

/-- Quoted text and comments of the base text are never counted, and come
through as they are wherever they are printed again. When nothing but them is
printed as quoted text, the build reads the code only. -/
structure LexicallySafe (L : Lexer) (cfg : Config) (D : Display) (parser : Parser)
    (baseSql : List Char) (q : Query) (params : Params) (initialBinds : List FilterValue) :
    Prop where
  counted : placeholderNumbers baseSql = numbersSparing Lexeme.isInert (L.lex baseSql)
  original : collectNumberedPlaceholders baseSql =
    firstUse [] (numbersSparing Lexeme.isInert (L.lex baseSql))
  unchanged : buildDynamicSql cfg D parser baseSql params initialBinds =
    buildSparing (fromBase L baseSql) L cfg D baseSql q params initialBinds
  codeOnly :
    (∀ binds maxExisting st binds',
      dynamicStatement cfg (.query q) params binds maxExisting = .ok (st, binds') →
        HidesNothingNew L D baseSql st) →
      buildDynamicSql cfg D parser baseSql params initialBinds =
        buildSparing Lexeme.isInert L cfg D baseSql q params initialBinds

section Build

variable {cfg : Config} {D : Display} {parser : Parser} {L : ApartLexer parser D}
  {baseSql : List Char} {q : Query} {params : Params} {initialBinds : List FilterValue}

/-- The build spares lexemes in which no printed statement has a number. -/
theorem buildDynamicSql_eq_buildSparing {spared : Lexeme → Bool}
    (hparse : parseSql parser baseSql = .ok (some (.query q)))
    (hbase : ∀ l ∈ L.lex baseSql, ¬l.Hides)
    (hprinted : ∀ binds maxExisting st binds',
      dynamicStatement cfg (.query q) params binds maxExisting = .ok (st, binds') →
        ∀ l ∈ L.lex (render (D.statement st)), spared l → placeholderNumbers l.text = []) :
    buildDynamicSql cfg D parser baseSql params initialBinds =
      buildSparing spared L.toLexer cfg D baseSql q params initialBinds := by
  have horiginal : collectNumberedPlaceholders baseSql =
      firstUse [] (numbersSparing Lexeme.isInert (L.lex baseSql)) := by
    rw [collectNumberedPlaceholders_eq,
      (placeholderNumbers_eq_sparing_iff L (L.apart_parsed _ _ hparse)).mpr
        ((forall_not_hides_iff _).mp hbase)]
  -- both builds take the same steps up to the pass over the printed text
  unfold buildDynamicSql buildSparing
  simp only [hparse, Except.mapError, baseBinds, horiginal, Bind.bind, Except.bind]
  generalize (if (params.limit.isSome || params.offset.isSome) = true then
    trimLimitOffsetPlaceholderBinds q initialBinds else (initialBinds, [])) = trimmed
  generalize (firstUse [] (numbersSparing Lexeme.isInert (L.lex baseSql))).filter
    (fun k => decide (k ∉ trimmed.2)) = numbers
  cases hstatement : dynamicStatement cfg (.query q) params trimmed.1 (maxPlaceholder numbers) with
  | error err => rfl
  | ok result =>
      simp only [renumber_eq_renumberSparing L _ _ _ (L.apart_printed _)
        (hprinted _ _ _ _ hstatement)]

/-- The build is lexically safe exactly when no literal, quoted identifier and
comment of the base text hides a placeholder. -/
theorem lexicallySafe_iff (hparse : parseSql parser baseSql = .ok (some (.query q))) :
    LexicallySafe L.toLexer cfg D parser baseSql q params initialBinds ↔
      ∀ l ∈ L.lex baseSql, ¬l.Hides := by
  have hcounted : placeholderNumbers baseSql = numbersSparing Lexeme.isInert (L.lex baseSql) ↔
      ∀ l ∈ L.lex baseSql, ¬l.Hides := by
    rw [placeholderNumbers_eq_sparing_iff L (L.apart_parsed _ _ hparse), forall_not_hides_iff]
  constructor
  · exact fun h => hcounted.mp h.counted
  · intro h
    constructor
    · exact hcounted.mpr h
    · rw [collectNumberedPlaceholders_eq, hcounted.mpr h]
    · refine buildDynamicSql_eq_buildSparing hparse h fun _ _ _ _ _ l _ hspared => ?_
      -- a spared lexeme stands in the base text
      rw [fromBase, Bool.and_eq_true, decide_eq_true_eq] at hspared
      exact (forall_not_hides_iff _).mp h l hspared.2 hspared.1
    · intro hprints
      refine buildDynamicSql_eq_buildSparing hparse h fun _ _ _ _ hstatement => ?_
      rw [← forall_not_hides_iff]
      intro l hl hhides
      obtain ⟨l', hl', hhides'⟩ := hprints _ _ _ _ hstatement ⟨l, hl, hhides⟩
      exact h l' hl' hhides'

end Build

/-! ### A tokenizer -/

namespace Lexer

/-- What the tokenizer is in the middle of; `acc` is the text of the lexeme
read so far, backwards. -/
inductive Mode
  | code
  | literal
  | identifier
  | line
  | block
  deriving DecidableEq

def Mode.kind : Mode → LexemeKind
  | .code => .code
  | .literal => .quoted
  | .identifier => .quoted
  | .line => .comment
  | .block => .comment

def lexFrom : Mode → List Char → List Char → List Lexeme
  | mode, acc, [] => [⟨mode.kind, acc.reverse⟩]
  | .code, acc, c :: cs =>
      if c = '\'' then ⟨.code, acc.reverse⟩ :: lexFrom .literal [c] cs
      else if c = '"' then ⟨.code, acc.reverse⟩ :: lexFrom .identifier [c] cs
      else if c = '-' ∧ cs.head? = some '-' then
        ⟨.code, acc.reverse⟩ :: lexFrom .line [c] cs
      else if c = '/' ∧ cs.head? = some '*' then
        ⟨.code, acc.reverse⟩ :: lexFrom .block [c] cs
      else lexFrom .code (c :: acc) cs
  | .literal, acc, c :: cs =>
      if c = '\'' then ⟨.quoted, (c :: acc).reverse⟩ :: lexFrom .code [] cs
      else lexFrom .literal (c :: acc) cs
  | .identifier, acc, c :: cs =>
      if c = '"' then ⟨.quoted, (c :: acc).reverse⟩ :: lexFrom .code [] cs
      else lexFrom .identifier (c :: acc) cs
  | .line, acc, c :: cs =>
      if c = '\n' then ⟨.comment, (c :: acc).reverse⟩ :: lexFrom .code [] cs
      else lexFrom .line (c :: acc) cs
  | .block, acc, c :: cs =>
      if c = '/' ∧ acc.head? = some '*' ∧ 3 ≤ acc.length then
        ⟨.comment, (c :: acc).reverse⟩ :: lexFrom .code [] cs
      else lexFrom .block (c :: acc) cs

theorem spell_lexFrom (mode : Mode) (acc cs : List Char) :
    spellLexemes (lexFrom mode acc cs) = acc.reverse ++ cs := by
  fun_induction lexFrom mode acc cs <;> simp_all [spellLexemes]

/-- A lexeme in front of a character that is no digit. -/
theorem apart_open {l : Lexeme} {mode : Mode} {c : Char} {cs : List Char} (hc : c.isDigit = false)
    (h : Apart (lexFrom mode [c] cs)) : Apart (l :: lexFrom mode [c] cs) := by
  refine ⟨fun _ hdigit => ?_, h⟩
  rw [spell_lexFrom] at hdigit
  simp [hc] at hdigit

/-- A lexeme that ends with a character that cannot stand in a number. -/
theorem apart_close {kind : LexemeKind} {c : Char} {acc : List Char} {ls : List Lexeme}
    (hdollar : c ≠ '$') (hdigit : c.isDigit = false) (h : Apart ls) :
    Apart (⟨kind, (c :: acc).reverse⟩ :: ls) := by
  refine ⟨fun hopen => ?_, h⟩
  rw [List.reverse_cons, openEnd_append_singleton] at hopen
  simp [hdollar, hdigit] at hopen

theorem apart_lexFrom (mode : Mode) (acc cs : List Char) : Apart (lexFrom mode acc cs) := by
  fun_induction lexFrom mode acc cs with
  | case1 mode acc => exact ⟨by simp [spellLexemes], trivial⟩
  | case2 acc cs ih => exact apart_open (by decide) ih
  | case3 acc cs _ ih => exact apart_open (by decide) ih
  | case4 acc c cs _ _ h ih => exact apart_open (by rw [h.1]; decide) ih
  | case5 acc c cs _ _ _ h ih => exact apart_open (by rw [h.1]; decide) ih
  | case6 acc c cs _ _ _ _ ih => exact ih
  | case7 acc cs ih => exact apart_close (by decide) (by decide) ih
  | case8 acc c cs _ ih => exact ih
  | case9 acc cs ih => exact apart_close (by decide) (by decide) ih
  | case10 acc c cs _ ih => exact ih
  | case11 acc cs ih => exact apart_close (by decide) (by decide) ih
  | case12 acc c cs _ ih => exact ih
  | case13 acc c cs h ih =>
      exact apart_close (by rw [h.1]; decide) (by rw [h.1]; decide) ih
  | case14 acc c cs _ ih => exact ih

/-- Strings in single quotes, identifiers in double quotes, and both kinds of
comments. -/
def standard : Lexer where
  lex := lexFrom .code []
  spell_lex s := spell_lexFrom .code [] s

end Lexer

def ApartLexer.standard (parser : Parser) (D : Display) : ApartLexer parser D where
  toLexer := .standard
  apart_parsed s _ _ := Lexer.apart_lexFrom .code [] s
  apart_printed st := Lexer.apart_lexFrom .code [] (render (D.statement st))

/-! ### Examples -/

namespace LexicalExample

open Reference

/-- `SELECT * FROM items WHERE price = '…' AND id = $1` -/
def priced (price : String) : Query :=
  simpleQuery (.select (simpleSelect [.wildcard] "items"
    (some (and (eq "price" (valueExpr (.singleQuotedString price)))
      (eq "id" (valueExpr (.placeholder "$1" (.argument 0))))))))

end LexicalExample

open LexicalExample Example Reference

/-- A price that looks like a placeholder: it is rewritten, and the only
argument ends up under its number. -/
theorem price_counted :
    ∃ built,
      buildDynamicSql (build .postgres) Display.reference (parserOf (priced "$5"))
        (text (priced "$5")) Params.default [.int 7] = .ok built ∧
      built.sql = "SELECT * FROM items WHERE price = '$1' AND id = $2".toList ∧
      built.bindValues = [.int 7] ∧
      ¬LexicallySafe Lexer.standard (build .postgres) Display.reference (parserOf (priced "$5"))
        (text (priced "$5")) (priced "$5") Params.default [.int 7] := by
  refine ⟨_, rfl, by decide, by decide, fun h => ?_⟩
  exact absurd h.counted (by decide)

/-- A price without digits behind the `$` is left alone. -/
theorem price_not_counted :
    LexicallySafe Lexer.standard (build .postgres) Display.reference (parserOf (priced "$ 5"))
        (text (priced "$ 5")) (priced "$ 5") Params.default [.int 7] :=
  (@lexicallySafe_iff _ _ _ (.standard _ _) _ _ _ _ rfl).mpr (by decide)

end SqlxData.Dynamic
