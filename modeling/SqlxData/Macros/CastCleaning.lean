import SqlxData.Lib.ConditionText
import SqlxData.Dynamic.LexicalSafety
import SqlxData.Macros.MultiInsert

/-!
What the cleaning of sqlx casts does to a whole statement. The pattern is
matched against the characters and does not know which quoted text is a column
alias: the cleaning touches the aliases only exactly when no other place of the
statement looks like a cast.
-/

namespace SqlxData.Macros

open SqlxData.Dynamic

/-! ### Column aliases of a statement -/

/-- A part of a statement: a quoted column alias of a projection or of a
RETURNING list, or text around these. -/
structure Segment where
  isAlias : Bool
  text : List Char

def spellSegments (segs : List Segment) : List Char := segs.flatMap Segment.text

/-- The SQL reader, as far as it finds the quoted column aliases. -/
structure AliasReader where
  read : List Char → List Segment
  spell_read : ∀ sql, spellSegments (read sql) = sql

/-- The column name in an alias that is a cast from quote to quote. -/
def Segment.castName (seg : Segment) : Option (List Char) :=
  if seg.isAlias then
    match castAt seg.text with
    | some (name, []) => some name
    | _ => none
  else none

/-- The segment without the override of its column. -/
def Segment.uncast (seg : Segment) : List Char := seg.castName.getD seg.text

/-- The statement with its aliases cleaned and everything else as it is. -/
def AliasReader.uncast (R : AliasReader) (sql : List Char) : List Char :=
  (R.read sql).flatMap Segment.uncast

/-- The cast pattern matches at no character of `cs`, with `behind` following
it. -/
def NoCastIn (behind cs : List Char) : Prop :=
  ∀ post, post <:+ cs → post ≠ [] → castAt (post ++ behind) = none

/-- The cast pattern matches nowhere but at aliases that are casts. -/
def OnlyAliasCasts : List Segment → Prop
  | [] => True
  | seg :: segs => (seg.castName.isSome ∨ NoCastIn (spellSegments segs) seg.text) ∧
      OnlyAliasCasts segs

/-! ### Matches in context -/

section Matching

variable {cs ds rest name : List Char}

theorem takeWhile_append_of_dropWhile {p : Char → Bool} (h : cs.dropWhile p ≠ []) :
    (cs ++ ds).takeWhile p = cs.takeWhile p ∧ (cs ++ ds).dropWhile p = cs.dropWhile p ++ ds := by
  induction cs with
  | nil => exact absurd rfl h
  | cons c cs ih =>
      cases hc : p c with
      | true =>
          have hcs : cs.dropWhile p ≠ [] := by simpa [hc] using h
          simpa [hc] using ih hcs
      | false => simp [hc]

theorem skipBlanks_append (h : skipBlanks cs = some rest) (hne : rest ≠ []) :
    skipBlanks (cs ++ ds) = some (rest ++ ds) := by
  unfold skipBlanks at h ⊢
  split at h
  · rename_i hlength
    obtain rfl := Option.some.inj h
    obtain ⟨htake, hdrop⟩ := @takeWhile_append_of_dropWhile cs ds _ hne
    rw [htake, hdrop, if_pos hlength]
  · cases h

theorem skipMark_append (h : skipMark cs = some rest) :
    skipMark (cs ++ ds) = some (rest ++ ds) := by
  cases cs with
  | nil => cases h
  | cons c cs =>
      simp only [skipMark, List.cons_append] at h ⊢
      split at h
      · rename_i hc
        rw [if_pos hc, Option.some.inj h]
      · cases h

theorem skipMark_append_of_none (h : skipMark cs = none) (hne : cs ≠ []) :
    skipMark (cs ++ ds) = none := by
  obtain ⟨c, cs, rfl⟩ := List.exists_cons_of_ne_nil hne
  simp only [skipMark, List.cons_append] at h ⊢
  split at h
  · cases h
  · rename_i hc
    rw [if_neg hc]

theorem skipMark_getD_append (h : (skipMark cs).getD cs ≠ []) :
    (skipMark (cs ++ ds)).getD (cs ++ ds) = (skipMark cs).getD cs ++ ds := by
  cases hmark : skipMark cs with
  | some rest => rw [skipMark_append hmark, Option.getD_some, Option.getD_some]
  | none =>
      rw [hmark, Option.getD_none] at h
      rw [skipMark_append_of_none hmark h, Option.getD_none, Option.getD_none]

theorem skipType_append (h : skipType cs = some rest) (hne : rest ≠ []) :
    skipType (cs ++ ds) = some (rest ++ ds) := by
  unfold skipType at h ⊢
  split at h
  · rename_i cs₁ hfirst
    rw [skipBlanks_append hfirst (by simp), List.cons_append]
    simp only
    split at h
    · rename_i c cs₂ hsecond
      rw [skipBlanks_append hsecond (by simp), List.cons_append]
      simp only
      split at h
      · rename_i htype
        have hrest := Option.some.inj h
        have hdrop : cs₂.dropWhile isTypeChar ≠ [] := by
          intro hnil
          rw [hnil] at hrest
          exact hne hrest.symm
        obtain ⟨htake', hdrop'⟩ := @takeWhile_append_of_dropWhile cs₂ ds _ hdrop
        rw [htake', hdrop', if_pos htype, skipMark_getD_append (by rwa [hrest]), hrest]
      · cases h
    · cases h
  · cases h

/-- A closing quote is neither a blank nor a colon. -/
theorem skipType_quote {quote : Char} (hquote : isCastQuote quote) (cs : List Char) :
    skipType (quote :: cs) = none := by
  simp only [isCastQuote, Bool.or_eq_true, decide_eq_true_eq] at hquote
  have hblank : isWhitespace quote = false := by rcases hquote with (rfl | rfl) | rfl <;> decide
  have hcolon : quote ≠ ':' := by rcases hquote with (rfl | rfl) | rfl <;> decide
  simp [skipType, skipBlanks, hblank, hcolon]

theorem skipSuffix_append {quote : Char} (hquote : isCastQuote quote)
    (h : skipSuffix cs = some (quote :: rest)) :
    skipSuffix (cs ++ ds) = some (quote :: (rest ++ ds)) := by
  have hne : cs ≠ [] := by
    rintro rfl
    cases h
  unfold skipSuffix at h ⊢
  cases hmark : skipMark cs with
  | some behind =>
      rw [hmark] at h
      simp only [Option.some.injEq] at h
      rw [skipMark_append hmark]
      cases htype : skipType behind with
      | some rest' =>
          rw [htype, Option.getD_some] at h
          simp only [skipType_append htype (by simp [h]), Option.getD_some, h, List.cons_append]
      | none =>
          rw [htype, Option.getD_none] at h
          simp only [h, List.cons_append, skipType_quote hquote, Option.getD_none]
  | none =>
      rw [hmark] at h
      rw [skipMark_append_of_none hmark hne]
      exact skipType_append h (by simp)

/-- A match does not depend on what follows it. -/
theorem castAt_append (h : castAt cs = some (name, rest)) :
    castAt (cs ++ ds) = some (name, rest ++ ds) := by
  rcases cs with _ | ⟨quote, _ | ⟨c, cs⟩⟩
  · cases h
  · cases h
  simp only [castAt] at h
  split at h
  · rename_i hstart
    split at h
    · rename_i close behind hsuffix
      split at h
      · rename_i hclose
        subst hclose
        obtain ⟨rfl, rfl⟩ := Prod.mk.inj (Option.some.inj h)
        have hdrop : cs.dropWhile isIdentChar ≠ [] := by
          intro hnil
          rw [hnil] at hsuffix
          cases hsuffix
        obtain ⟨htake', hdrop'⟩ := @takeWhile_append_of_dropWhile cs ds _ hdrop
        simp only [castAt, List.cons_append, htake', hdrop', if_pos hstart,
          skipSuffix_append hstart.1 hsuffix, if_true]
      · cases h
    · cases h
  · cases h

/-- A match begins with a quote and the name in it with something else. -/
theorem exists_of_castAt (h : castAt cs = some (name, rest)) :
    ∃ quote c name', cs.head? = some quote ∧ name = c :: name' ∧ c ≠ quote := by
  rcases cs with _ | ⟨quote, _ | ⟨c, cs⟩⟩
  · cases h
  · cases h
  simp only [castAt] at h
  split at h
  · rename_i hstart
    split at h
    · split at h
      · obtain ⟨rfl, -⟩ := Prod.mk.inj (Option.some.inj h)
        refine ⟨quote, c, _, rfl, rfl, ?_⟩
        rintro rfl
        have hquote := hstart.1
        have hident := hstart.2.1
        simp only [isCastQuote, Bool.or_eq_true, decide_eq_true_eq] at hquote
        rcases hquote with (rfl | rfl) | rfl <;> exact absurd hident (by decide)
      · cases h
    · cases h
  · cases h

end Matching

/-! ### Cleaning a statement -/

theorem cleanFrom_drop (skip : ℕ) (cs : List Char) :
    cleanFrom skip cs = cleanFrom 0 (cs.drop skip) := by
  induction cs generalizing skip with
  | nil => cases skip <;> rfl
  | cons c cs ih =>
      cases skip with
      | zero => rfl
      | succ skip => exact ih skip

/-- A cast in front of a text is replaced by its name. -/
theorem clean_cast {cs name : List Char} (h : castAt cs = some (name, [])) (behind : List Char) :
    cleanFrom 0 (cs ++ behind) = name ++ cleanFrom 0 behind := by
  have happend := @castAt_append cs behind [] name h
  cases cs with
  | nil => cases h
  | cons c cs =>
      rw [List.cons_append] at happend ⊢
      rw [cleanFrom, happend]
      simp only [List.nil_append, List.length_append, Nat.add_sub_cancel]
      rw [cleanFrom_drop, List.drop_left]

/-- A text in front of another comes through exactly when the pattern matches
at none of its characters. -/
theorem clean_text_iff (cs behind target : List Char) :
    cleanFrom 0 (cs ++ behind) = cs ++ target ↔
      NoCastIn behind cs ∧ cleanFrom 0 behind = target := by
  induction cs with
  | nil => simp [NoCastIn]
  | cons c cs ih =>
      have hcons : NoCastIn behind (c :: cs) ↔
          castAt (c :: (cs ++ behind)) = none ∧ NoCastIn behind cs := by
        constructor
        · intro h
          exact ⟨h (c :: cs) List.suffix_rfl (by simp), fun post hpost =>
            h post (hpost.trans (List.suffix_cons c cs))⟩
        · rintro ⟨hfirst, hrest⟩ post hpost hne
          rcases List.suffix_cons_iff.mp hpost with rfl | hpost
          · exact hfirst
          · exact hrest post hpost hne
      rw [hcons, List.cons_append, cleanFrom, List.cons_append]
      cases hcast : castAt (c :: (cs ++ behind)) with
      | none => simp [ih]
      | some result =>
          obtain ⟨name, rest⟩ := result
          obtain ⟨quote, d, name', hquote, rfl, hne⟩ := exists_of_castAt hcast
          obtain rfl : c = quote := Option.some.inj hquote
          simp [hne]

theorem clean_segments_iff (segs : List Segment) :
    cleanFrom 0 (spellSegments segs) = segs.flatMap Segment.uncast ↔ OnlyAliasCasts segs := by
  induction segs with
  | nil => simp [spellSegments, cleanFrom, OnlyAliasCasts]
  | cons seg segs ih =>
      have hspell : spellSegments (seg :: segs) = seg.text ++ spellSegments segs := rfl
      rw [hspell, List.flatMap_cons, OnlyAliasCasts]
      cases hcast : seg.castName with
      | none =>
          rw [Segment.uncast, hcast, Option.getD_none, clean_text_iff, ih]
          simp
      | some name =>
          have hmatch : castAt seg.text = some (name, []) := by
            simp only [Segment.castName] at hcast
            split at hcast
            · split at hcast
              · rename_i hat
                rw [hat, Option.some.inj hcast]
              · cases hcast
            · cases hcast
          rw [Segment.uncast, hcast, Option.getD_some, clean_cast hmatch, List.append_cancel_left_eq,
            ih]
          simp

/-- The cleaning does nothing to a statement but take the overrides out of its
quoted column aliases exactly when the cast pattern matches nowhere but at such
an alias, from quote to quote. -/
theorem clean_touches_aliases_iff (R : AliasReader) (sql : List Char) :
    cleanSqlxCastSyntaxForRuntime sql = R.uncast sql ↔ OnlyAliasCasts (R.read sql) := by
  rw [← clean_segments_iff, R.spell_read]
  rfl

/-! ### A reader -/

/-- The clause the text is in, one for each open parenthesis, innermost first:
whether it is a projection or a RETURNING list; and whether AS was read last. -/
structure ClauseState where
  inItems : List Bool
  behindAs : Bool

namespace ClauseState

def start : ClauseState := ⟨[false], false⟩

def itemClauses : List String := ["SELECT", "RETURNING"]

def otherClauses : List String :=
  ["FROM", "WHERE", "GROUP", "HAVING", "WINDOW", "ORDER", "LIMIT", "OFFSET", "FETCH", "UNION",
    "INTERSECT", "EXCEPT", "INSERT", "UPDATE", "DELETE", "VALUES", "SET", "ON"]

def next (st : ClauseState) : ConditionText.Lexeme → ClauseState
  | .lparen => ⟨false :: st.inItems, false⟩
  | .rparen => ⟨st.inItems.tail, false⟩
  | .word w =>
      let word := String.ofList (w.map Char.toUpper)
      if word = "AS" then { st with behindAs := true }
      else if word ∈ itemClauses then ⟨true :: st.inItems.tail, false⟩
      else if word ∈ otherClauses then ⟨false :: st.inItems.tail, false⟩
      else { st with behindAs := false }
  | _ => { st with behindAs := false }

def opensAlias (st : ClauseState) : Bool := st.behindAs && st.inItems.headD false

/-- The quoted text behind an AS in a projection or a RETURNING list. -/
def segments : ClauseState → List Lexeme → List Segment
  | _, [] => []
  | st, l :: ls =>
      match l.kind with
      | .code => ⟨false, l.text⟩ :: segments ((ConditionText.lex l.text).foldl next st) ls
      | .quoted => ⟨st.opensAlias, l.text⟩ :: segments { st with behindAs := false } ls
      | .comment => ⟨false, l.text⟩ :: segments st ls

theorem spell_segments (st : ClauseState) (ls : List Lexeme) :
    spellSegments (segments st ls) = spellLexemes ls := by
  fun_induction segments st ls <;> simp_all [spellSegments, spellLexemes]

end ClauseState

/-- Column aliases behind AS, in the lexemes of the statement. -/
def AliasReader.ofLexer (L : Lexer) : AliasReader where
  read sql := ClauseState.start.segments (L.lex sql)
  spell_read sql := by rw [ClauseState.spell_segments, L.spell_lex]

/-! ### A literal that looks like a cast -/

namespace CastCleaningExample

def reader : AliasReader := .ofLexer .standard

def activeUsers : String := "SELECT id AS \"id!\" FROM users WHERE status = 'active!'"

end CastCleaningExample

open CastCleaningExample

/-- The literal loses its mark and its quotes. -/
theorem clean_strips_literal :
    cleanSqlxCastSyntaxForRuntime activeUsers.toList =
        "SELECT id AS id FROM users WHERE status = active".toList ∧
      reader.uncast activeUsers.toList =
        "SELECT id AS id FROM users WHERE status = 'active!'".toList ∧
      cleanSqlxCastSyntaxForRuntime activeUsers.toList ≠ reader.uncast activeUsers.toList := by
  decide

end SqlxData.Macros
