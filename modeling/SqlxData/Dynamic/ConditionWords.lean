import SqlxData.Lib.ConditionText
import SqlxData.Dynamic.BoundText
import SqlxData.Dynamic.FilterTruth

/-!
The text of a generated WHERE. The characters the build prints are cut into
words, read with the predicates that stand in them and with NOT over AND over
OR, and what is read is the conjunction of the filters, the disjunction of the
searched fields and the cursor predicate.
-/

namespace SqlxData.Dynamic

open SqlxData.Sqlparser BoolText ConditionText NumberedText ThreeValued

variable {cfg : Config} {params : Params} {D : Display}

/-! ### The characters of a built statement -/

/-- A token of the built text; with a numbering its `$k` have got new
numbers. -/
def tokenText (numbering : Option (ℕ → ℕ)) (t : Tok) : List Char :=
  match numbering with
  | none => t.text
  | some f => NumberedText.spell (relabel f (pieces usizeBound t.text))

def tokensText (numbering : Option (ℕ → ℕ)) (ts : List Tok) : List Char :=
  ts.flatMap (tokenText numbering)

@[simp] theorem tokensText_nil (numbering : Option (ℕ → ℕ)) : tokensText numbering [] = [] := rfl

@[simp] theorem tokensText_cons (numbering : Option (ℕ → ℕ)) (t : Tok) (ts : List Tok) :
    tokensText numbering (t :: ts) = tokenText numbering t ++ tokensText numbering ts := rfl

@[simp] theorem tokensText_append (numbering : Option (ℕ → ℕ)) (ts us : List Tok) :
    tokensText numbering (ts ++ us) = tokensText numbering ts ++ tokensText numbering us := by
  simp [tokensText]

/-- A word without `$` is left alone. -/
theorem tokenText_word (numbering : Option (ℕ → ℕ)) {s : String} (hs : '$' ∉ s.toList) :
    tokenText numbering (.word s) = s.toList := by
  cases numbering with
  | none => rfl
  | some f =>
      have hnone : numbers (pieces usizeBound s.toList) = [] := numbers_pieces_of_plain hs
      rw [tokenText, Tok.text_word, relabel_id (by simp [hnone]), spell_pieces_of_no_numbers hnone]

/-- The placeholders the generator makes. -/
def IsPlaceholder (w : Word) : Prop := w = "?".toList ∨ ∃ k : ℕ, w = '$' :: (toString k).toList

theorem isPlaceholder_tokenText (numbering : Option (ℕ → ℕ)) {text : String} (origin : Origin)
    (h : text = "?" ∨ ∃ n : UInt8, text = "$" ++ toString n.toNat) :
    IsPlaceholder (tokenText numbering (.placeholder text origin)) := by
  rcases h with rfl | ⟨n, rfl⟩
  · exact .inl (tokenText_word numbering (s := "?") (by decide))
  · have htext : ("$" ++ toString n.toNat).toList = '$' :: (toString n.toNat).toList := by
      rw [String.toList_append]
      rfl
    refine .inr ?_
    cases numbering with
    | none => exact ⟨n.toNat, htext⟩
    | some f =>
        have hn : n.toNat < usizeBound := by
          have := n.toNat_lt
          rw [usizeBound]
          omega
        have hpieces := @pieces_marker usizeBound n.toNat hn [] (by simp)
        rw [List.append_nil] at hpieces
        refine ⟨f n.toNat, ?_⟩
        rw [tokenText, Tok.text_placeholder, htext, hpieces]
        simp

/-- The numbering pass leaves the order of the tokens as it is. -/
theorem exists_numbering (binds : List FilterValue) (numbers : List ℕ) (maxExisting : ℕ)
    {ts : List Tok} (hts : Separated ts) :
    ∃ numbering, (renumberNumberedPlaceholdersWithBinds binds numbers maxExisting (render ts)).1 =
      tokensText numbering ts := by
  rw [renumberNumberedPlaceholdersWithBinds_eq]
  simp only
  split
  · exact ⟨none, rfl⟩
  · refine ⟨some (rank (numberOrder (render ts))), ?_⟩
    rw [pieces_render hts, relabel, List.map_flatMap, NumberedText.spell, List.flatMap_assoc]
    rfl

/-! ### Written operands -/

/-- A plain or dotted name that is no keyword of a condition. -/
def ColumnName (name : String) : Prop :=
  name.toList ≠ [] ∧ ofClass .word name.toList ∧ '$' ∉ name.toList ∧
    keywordOf name.toList = none

instance : DecidablePred ColumnName := fun name =>
  inferInstanceAs (Decidable (name.toList ≠ [] ∧ ofClass .word name.toList ∧
    '$' ∉ name.toList ∧ keywordOf name.toList = none))

/-- The word of a column or a placeholder in the built text. -/
def wordOf (numbering : Option (ℕ → ℕ)) : Expr → Word
  | .identifier i => i.value.toList
  | .value (.placeholder text origin) => tokenText numbering (.placeholder text origin)
  | _ => []

def operandOf (numbering : Option (ℕ → ℕ)) : Expr → Operand
  | .function [name] none [arg] none [] => .call name.value.toList (wordOf numbering arg)
  | e => .word (wordOf numbering e)

def escapeOf : Option Value → Option Word
  | some (.singleQuotedString s) => some s.toList
  | _ => none

/-- The predicate a generated operand of AND and OR is read as. -/
def predicateOf (numbering : Option (ℕ → ℕ)) : Expr → Predicate
  | .binaryOp l op r => .compare op.symbol.toList (operandOf numbering l) (operandOf numbering r)
  | .isNull e => .isNull false (operandOf numbering e)
  | .isNotNull e => .isNull true (operandOf numbering e)
  | .inList e (v :: vs) negated =>
      .inList negated (operandOf numbering e) (wordOf numbering v) (vs.map (wordOf numbering))
  | .between e negated low high =>
      .between negated (operandOf numbering e) (operandOf numbering low) (operandOf numbering high)
  | .like negated e pattern escape =>
      .like false negated (operandOf numbering e) (operandOf numbering pattern) (escapeOf escape)
  | .ilike negated e pattern escape =>
      .like true negated (operandOf numbering e) (operandOf numbering pattern) (escapeOf escape)
  | _ => .isNull false (.word [])

/-- A column or a generated placeholder. -/
inductive IsWord : Expr → Prop
  | column {name : String} (h : ColumnName name) : IsWord (idExpr name)
  | placeholder {text : String} (v : FilterValue)
      (h : text = "?" ∨ ∃ n : UInt8, text = "$" ++ toString n.toNat) :
      IsWord (valueExpr (.placeholder text (.pushed v)))

/-- A column or a placeholder, as it is or in lower case. -/
inductive IsSimple : Expr → Prop
  | word {e : Expr} (h : IsWord e) : IsSimple e
  | lower {e : Expr} (h : IsWord e) : IsSimple (lowerExpr e)

/-- The operands of AND and OR the builder makes. -/
inductive IsPredicate : Expr → Prop
  | compare {op : BinaryOperator} {l r : Expr}
      (hop : op ∈ [BinaryOperator.eq, .notEq, .gt, .lt, .gtEq, .ltEq]) (hl : IsSimple l)
      (hr : IsSimple r) : IsPredicate (bin op l r)
  | isNull {e : Expr} (he : IsSimple e) : IsPredicate (.isNull e)
  | isNotNull {e : Expr} (he : IsSimple e) : IsPredicate (.isNotNull e)
  | inList {e v : Expr} {vs : List Expr} (negated : Bool) (he : IsSimple e) (hv : IsWord v)
      (hvs : ∀ v ∈ vs, IsWord v) : IsPredicate (.inList e (v :: vs) negated)
  | between {e low high : Expr} (negated : Bool) (he : IsSimple e) (hlow : IsSimple low)
      (hhigh : IsSimple high) : IsPredicate (.between e negated low high)
  | like {e pattern : Expr} {escape : Option Value} (negated : Bool) (he : IsSimple e)
      (hpattern : IsSimple pattern) (hescape : escape = none ∨ escape = some backslash) :
      IsPredicate (.like negated e pattern escape)
  | ilike {e pattern : Expr} {escape : Option Value} (negated : Bool) (he : IsSimple e)
      (hpattern : IsSimple pattern) (hescape : escape = none ∨ escape = some backslash) :
      IsPredicate (.ilike negated e pattern escape)

section Written

variable (numbering : Option (ℕ → ℕ))

theorem charClass_of_isDigit {c : Char} (hc : c.isDigit) : charClass c = .word := by
  have hword : isWordChar c := by simp [isWordChar, Char.isAlphanum, hc]
  have hne : ∀ d : Char, d.isDigit = false → c ≠ d := by
    rintro d hd rfl
    simp [hc] at hd
  have hspace : c.isWhitespace = false := by
    simp [Char.isWhitespace, hne ' ' rfl, hne '\t' rfl, hne '\r' rfl, hne '\n' rfl]
  rw [charClass, if_neg (hne '(' rfl), if_neg (hne ')' rfl), if_neg (hne ',' rfl),
    if_neg (hne '\'' rfl), hspace, hword]
  rfl

theorem IsPlaceholder.wellFormed {w : Word} (h : IsPlaceholder w) : (Lexeme.word w).WellFormed := by
  rcases h with rfl | ⟨k, rfl⟩
  · exact ⟨by decide, by decide, by decide⟩
  · refine ⟨by simp, ofClass_cons.mpr ⟨by decide, ?_⟩, ?_⟩
    · simp only [ofClass, List.all_eq_true, decide_eq_true_eq]
      exact fun c hc => charClass_of_isDigit (isDigit_of_mem_toString hc)
    rw [keywordOf, List.find?_eq_none]
    intro keyword _
    cases keyword <;> simp [Keyword.word]

theorem IsWord.spec {e : Expr} (h : IsWord e) (D : Display) :
    tokensText numbering (D.expr e) = wordOf numbering e ∧
      (Lexeme.word (wordOf numbering e)).WellFormed := by
  cases h with
  | column h =>
      obtain ⟨hne, hword, hdollar, hkeyword⟩ := h
      rw [idExpr, D.expr_identifier, D.ident_new, tokensText_cons, tokenText_word _ hdollar]
      exact ⟨List.append_nil _, hne, hword, hkeyword⟩
  | placeholder v h =>
      rw [valueExpr, D.expr_placeholder]
      exact ⟨List.append_nil _, (isPlaceholder_tokenText numbering _ h).wellFormed⟩

theorem IsWord.operandOf {e : Expr} (h : IsWord e) :
    operandOf numbering e = .word (wordOf numbering e) := by
  cases h <;> rfl

/-- The operand is written in its tokens. -/
theorem IsSimple.spec {e : Expr} (h : IsSimple e) (D : Display) :
    tokensText numbering (D.expr e) = ConditionText.spell ((operandOf numbering e).items false) ∧
      (operandOf numbering e).WellFormed := by
  cases h with
  | word h =>
      obtain ⟨htext, hwell⟩ := h.spec numbering D
      rw [htext, h.operandOf]
      refine ⟨by simp [Operand.items, ConditionText.spell, Lexeme.spell], ?_⟩
      exact List.forall_mem_singleton.mpr hwell
  | @lower e h =>
      obtain ⟨htext, hwell⟩ := h.spec numbering D
      have hcall : D.expr (lowerExpr e) = .word "LOWER(" :: (D.expr e ++ [.word ")"]) := by
        rw [lowerExpr, D.expr_call, D.ident_new]
        simp [commaSep, DuplicateTreatment.text]
      have hlower : operandOf numbering (lowerExpr e) =
          .call "LOWER".toList (wordOf numbering e) := rfl
      rw [hcall, hlower, tokensText_cons, tokensText_append, htext, tokensText_cons,
        tokenText_word _ (by decide), tokenText_word _ (by decide)]
      refine ⟨?_, ?_⟩
      · simp [Operand.items, ConditionText.spell, Lexeme.spell]
      · have hname : (Lexeme.word "LOWER".toList).WellFormed :=
          ⟨by decide, by decide, by decide⟩
        have hlexemes : (Operand.call "LOWER".toList (wordOf numbering e)).lexemes =
            [.word "LOWER".toList, .lparen, .word (wordOf numbering e), .rparen] := rfl
        rw [Operand.WellFormed, hlexemes]
        intro l hl
        simp only [List.mem_cons, List.not_mem_nil, or_false] at hl
        rcases hl with rfl | rfl | rfl | rfl
        · exact hname
        · trivial
        · exact hwell
        · trivial

theorem IsPredicate.skeleton {e : Expr} (h : IsPredicate e) : e.skeleton = .operand e := by
  cases h with
  | @compare op l r hop hl hr => cases op <;> simp_all [bin, Expr.skeleton]
  | isNull | isNotNull | inList | between | like | ilike => rfl

theorem wellFormed_symbol {op : BinaryOperator}
    (hop : op ∈ [BinaryOperator.eq, .notEq, .gt, .lt, .gtEq, .ltEq]) :
    (Lexeme.operator op.symbol.toList).WellFormed ∧
      tokenText numbering (.word (" " ++ op.symbol ++ " ")) = ' ' :: (op.symbol.toList ++ [' ']) := by
  simp only [List.mem_cons, List.not_mem_nil, or_false] at hop
  rcases hop with rfl | rfl | rfl | rfl | rfl | rfl <;>
    exact ⟨⟨by decide, by decide⟩, tokenText_word _ (by decide)⟩

theorem tokensText_words {vs : List Expr} (hvs : ∀ v ∈ vs, IsWord v) :
    tokensText numbering (vs.flatMap fun v => .word ", " :: D.expr v) ++ [')'] =
      ConditionText.spell (wordItems (vs.map (wordOf numbering))) := by
  induction vs with
  | nil => rfl
  | cons v vs ih =>
      obtain ⟨hv, hvs⟩ := List.forall_mem_cons.mp hvs
      have hcons : ConditionText.spell (wordItems (wordOf numbering v :: vs.map (wordOf numbering))) =
          ", ".toList ++ (wordOf numbering v ++
            ConditionText.spell (wordItems (vs.map (wordOf numbering)))) := by
        simp [wordItems, ConditionText.spell, Lexeme.spell]
      rw [List.flatMap_cons, List.cons_append, tokensText_cons, tokensText_append,
        (hv.spec numbering D).1, tokenText_word _ (by decide), List.map_cons, hcons, ← ih hvs]
      simp

theorem escapeOf_eq {escape : Option Value} (h : escape = none ∨ escape = some backslash) :
    tokensText numbering (D.escape escape) = ConditionText.spell (escapeItems (escapeOf escape)) ∧
      ∀ w ∈ escapeOf escape, '\'' ∉ w := by
  rcases h with rfl | rfl
  · rw [D.escape_none]
    exact ⟨rfl, by simp [escapeOf]⟩
  · rw [backslash, D.escape_backslash, tokensText_cons, tokenText_word _ (by decide)]
    exact ⟨rfl, by simp [escapeOf]⟩

/-- A generated operand of AND and OR is written as its predicate. -/
theorem IsPredicate.spec {e : Expr} (h : IsPredicate e) (D : Display) :
    tokensText numbering (D.expr e) = ConditionText.spell ((predicateOf numbering e).items false) ∧
      (predicateOf numbering e).WellFormed := by
  have hkeyword {s : String} (hs : '$' ∉ s.toList) (ts : List Tok) :
      tokensText numbering (.word s :: ts) = s.toList ++ tokensText numbering ts := by
    rw [tokensText_cons, tokenText_word _ hs]
  cases h with
  | @compare op l r hop hl hr =>
      obtain ⟨hltext, hlwell⟩ := hl.spec numbering D
      obtain ⟨hrtext, hrwell⟩ := hr.spec numbering D
      obtain ⟨hopwell, hoptext⟩ := wellFormed_symbol numbering hop
      refine ⟨?_, Predicate.wellFormed_compare hlwell hrwell hopwell⟩
      rw [bin, D.expr_binaryOp, tokensText_append, tokensText_cons, hltext, hrtext, hoptext]
      simp [predicateOf, Predicate.items, Lexeme.spell]
  | isNull he =>
      obtain ⟨htext, hwell⟩ := he.spec numbering D
      refine ⟨?_, Predicate.wellFormed_isNull hwell false⟩
      rw [D.expr_isNull, tokensText_append, htext, hkeyword (by decide)]
      simp [predicateOf, Predicate.items, negatable, Lexeme.spell, Keyword.word]
  | isNotNull he =>
      obtain ⟨htext, hwell⟩ := he.spec numbering D
      refine ⟨?_, Predicate.wellFormed_isNull hwell true⟩
      rw [D.expr_isNotNull, tokensText_append, htext, hkeyword (by decide)]
      simp [predicateOf, Predicate.items, negatable, Lexeme.spell, Keyword.word]
  | @inList e v vs negated he hv hvs =>
      obtain ⟨htext, hwell⟩ := he.spec numbering D
      obtain ⟨hvtext, hvwell⟩ := hv.spec numbering D
      refine ⟨?_, Predicate.wellFormed_inList hwell negated ?_⟩
      · have hlist : tokensText numbering (commaSep ((v :: vs).map D.expr) ++ [.word ")"]) =
            wordOf numbering v ++
              ConditionText.spell (wordItems (vs.map (wordOf numbering))) := by
          rw [← @tokensText_words D numbering vs hvs]
          simp [commaSep, hvtext, List.flatMap_map, tokenText_word numbering (s := ")") (by decide)]
        rw [D.expr_inList, List.append_assoc, tokensText_append, htext, List.cons_append,
          hkeyword (by cases negated <;> decide), hlist]
        cases negated <;> simp [predicateOf, Predicate.items, negatable, Lexeme.spell, Keyword.word]
      · exact List.forall_mem_cons.mpr ⟨hvwell, List.forall_mem_map.mpr fun v hv =>
          ((hvs v hv).spec numbering D).2⟩
  | between negated he hlow hhigh =>
      obtain ⟨htext, hwell⟩ := he.spec numbering D
      obtain ⟨hlowtext, hlowwell⟩ := hlow.spec numbering D
      obtain ⟨hhightext, hhighwell⟩ := hhigh.spec numbering D
      refine ⟨?_, Predicate.wellFormed_between hwell hlowwell negated hhighwell⟩
      rw [D.expr_between, List.append_assoc, List.cons_append, tokensText_append, htext,
        hkeyword (by cases negated <;> decide), tokensText_append, hlowtext, hkeyword (by decide),
        hhightext]
      cases negated <;> simp [predicateOf, Predicate.items, negatable, Lexeme.spell, Keyword.word]
  | @like e pattern escape negated he hpattern hescape =>
      obtain ⟨htext, hwell⟩ := he.spec numbering D
      obtain ⟨hpatterntext, hpatternwell⟩ := hpattern.spec numbering D
      obtain ⟨hescapetext, hescapewell⟩ := @escapeOf_eq D numbering escape hescape
      refine ⟨?_, Predicate.wellFormed_like hwell hpatternwell false negated hescapewell⟩
      rw [D.expr_like, List.append_assoc, List.cons_append, tokensText_append, htext,
        hkeyword (by cases negated <;> decide), tokensText_append, hpatterntext, hescapetext]
      cases negated <;> simp [predicateOf, Predicate.items, negatable, Lexeme.spell, Keyword.word]
  | @ilike e pattern escape negated he hpattern hescape =>
      obtain ⟨htext, hwell⟩ := he.spec numbering D
      obtain ⟨hpatterntext, hpatternwell⟩ := hpattern.spec numbering D
      obtain ⟨hescapetext, hescapewell⟩ := @escapeOf_eq D numbering escape hescape
      refine ⟨?_, Predicate.wellFormed_like hwell hpatternwell true negated hescapewell⟩
      rw [D.expr_ilike, List.append_assoc, List.cons_append, tokensText_append, htext,
        hkeyword (by cases negated <;> decide), tokensText_append, hpatterntext, hescapetext]
      cases negated <;> simp [predicateOf, Predicate.items, negatable, Lexeme.spell, Keyword.word]

/-! ### Written conditions -/

/-- The condition is made of generated predicates. -/
def IsCondition (e : Expr) : Prop := ∀ a ∈ e.skeleton.operands, IsPredicate a

/-- The formula a condition is read as. -/
def formulaOf (e : Expr) : Formula Predicate := e.skeleton.map (predicateOf numbering)

theorem tokensText_print (D : Display) {f : Formula Expr} (hf : ∀ a ∈ f.operands, IsPredicate a) :
    tokensText numbering (f.print.flatMap D.spell) =
      spellFormula (f.map (predicateOf numbering)) := by
  have hword {s : String} (hs : '$' ∉ s.toList) :
      tokensText numbering [.word s] = s.toList := by
    rw [tokensText_cons, tokenText_word _ hs]
    exact List.append_nil _
  induction f with
  | operand a =>
      rw [D.spell_print_operand]
      exact ((hf a (by simp [Formula.operands])).spec numbering D).1
  | not f ih =>
      rw [Formula.print, List.flatMap_cons, tokensText_append, ih hf, Formula.map,
        spellFormula_not, Display.spell, hword (by decide)]
  | and f g ihf ihg =>
      obtain ⟨hf, hg⟩ := List.forall_mem_append.mp hf
      rw [Formula.print, List.flatMap_append, List.flatMap_cons, tokensText_append,
        tokensText_append, ihf hf, ihg hg, Formula.map, spellFormula_and, Display.spell,
        hword (by decide)]
  | or f g ihf ihg =>
      obtain ⟨hf, hg⟩ := List.forall_mem_append.mp hf
      rw [Formula.print, List.flatMap_append, List.flatMap_cons, tokensText_append,
        tokensText_append, ihf hf, ihg hg, Formula.map, spellFormula_or, Display.spell,
        hword (by decide)]
  | paren f ih =>
      rw [Formula.print, List.cons_append, List.flatMap_cons, List.flatMap_append,
        tokensText_append, tokensText_append, ih hf, Formula.map, spellFormula_paren,
        List.flatMap_singleton, Display.spell, Display.spell, hword (by decide), hword (by decide)]

/-- The text of a condition is read back as its formula. -/
theorem IsCondition.readCondition {e : Expr} (he : IsCondition e) (hcanonical : e.skeleton.Canonical)
    (D : Display) :
    readCondition (tokensText numbering (D.expr e)) = some (formulaOf numbering e) := by
  rw [D.expr_eq_spell, tokensText_print numbering D he]
  refine readCondition_spell ((Formula.fitsAt_map _ _ _).mpr hcanonical) fun p hp => ?_
  rw [Formula.operands_map] at hp
  obtain ⟨a, ha, rfl⟩ := List.mem_map.mp hp
  exact ((he a ha).spec numbering D).2

end Written

theorem IsPredicate.isCondition {e : Expr} (h : IsPredicate e) : IsCondition e := by
  rw [IsCondition, h.skeleton]
  exact List.forall_mem_singleton.mpr h

theorem IsCondition.and {e e' : Expr} (h : IsCondition e) (h' : IsCondition e') :
    IsCondition (and e e') := List.forall_mem_append.mpr ⟨h, h'⟩

theorem IsCondition.or {e e' : Expr} (h : IsCondition e) (h' : IsCondition e') :
    IsCondition (or e e') := List.forall_mem_append.mpr ⟨h, h'⟩

theorem IsCondition.grouped {e : Expr} (h : IsCondition e) : IsCondition (grouped e) := by
  rw [Dynamic.grouped]
  split
  · exact h
  · exact h

theorem isCondition_reduce {op : Expr → Expr → Expr}
    (hop : ∀ e e', IsCondition e → IsCondition e' → IsCondition (op e e')) {es : List Expr}
    (hes : ∀ e ∈ es, IsCondition e) : ∀ combined ∈ reduce op es, IsCondition combined := by
  rcases es with _ | ⟨e, es⟩
  · simp [reduce]
  rw [List.forall_mem_cons] at hes
  obtain ⟨he, hes⟩ := hes
  rintro _ ⟨⟩
  induction es generalizing e with
  | nil => exact he
  | cons e' es ih =>
      rw [List.forall_mem_cons] at hes
      exact ih (op e e') (hop e e' he hes.1) hes.2

/-! ### The joined condition -/

theorem eval_grouped (value : Expr → Truth) (e : Expr) :
    (grouped e).skeleton.eval value = e.skeleton.eval value := by
  rw [grouped]
  split <;> rfl

theorem skeleton_reduce_and (es : List Expr) :
    (reduce and es).map Expr.skeleton = Formula.all (es.map Expr.skeleton) := by
  cases es with
  | nil => rfl
  | cons e es => exact congrArg some (skeleton_foldl_and e es)

theorem skeleton_reduce_or (es : List Expr) :
    (reduce or es).map Expr.skeleton = Formula.any (es.map Expr.skeleton) := by
  rcases es with _ | ⟨e, es⟩
  · rfl
  refine congrArg some ?_
  induction es generalizing e with
  | nil => rfl
  | cons e' es ih => exact ih (or e e')

/-- Parentheses do not change what is evaluated. -/
theorem eval_reduce_groupedAnd (value : Expr → Truth) (es : List Expr) :
    (reduce groupedAnd es).map (·.skeleton.eval value) =
      (Formula.all (es.map Expr.skeleton)).map (·.eval value) := by
  rcases es with _ | ⟨e, es⟩
  · rfl
  have hfold : (es.foldl groupedAnd e).skeleton.eval value =
      ((es.map Expr.skeleton).foldl .and e.skeleton).eval value := by
    induction es using List.reverseRecOn with
    | nil => rfl
    | append_singleton es e' ih =>
        have hjoin : (groupedAnd (es.foldl groupedAnd e) e').skeleton.eval value =
            ((es.foldl groupedAnd e).skeleton.eval value).and (e'.skeleton.eval value) := by
          rw [← eval_grouped value (es.foldl groupedAnd e), ← eval_grouped value e']
          rfl
        rw [List.foldl_append, List.foldl_cons, List.foldl_nil, hjoin, ih, List.map_append,
          List.foldl_append]
        rfl
  exact congrArg some hfold

/-- The joined condition evaluates to the filters, the searched fields and the
cursor condition, joined as trees. -/
theorem DynamicParts.eval_combined (parts : DynamicParts) (value : Expr → Truth) :
    parts.combined.map (·.skeleton.eval value) =
      (Formula.all ((Formula.all (parts.filters.map Expr.skeleton)).toList ++
        (Formula.any (parts.search.map Expr.skeleton)).toList ++
        (parts.cursor.map Expr.skeleton).toList)).map (·.eval value) := by
  rw [DynamicParts.combined, eval_reduce_groupedAnd, List.map_append, List.map_append,
    ← skeleton_reduce_and, ← skeleton_reduce_or]
  simp only [Option.toList_map]

theorem canonical_of_grouped {e : Expr} (h : (grouped e).skeleton.Canonical) :
    e.skeleton.Canonical := by
  rw [grouped] at h
  split at h
  · exact h
  · exact h

theorem DynamicParts.WellShaped.canonical {parts : DynamicParts} (h : parts.WellShaped)
    {combined : Expr} (hcombined : parts.combined = some combined) :
    combined.skeleton.Canonical := by
  obtain ⟨e, es, hfactors, hskeleton⟩ := h.skeleton_combined hcombined
  have hliteral := h.literal
  rw [hfactors] at hliteral
  obtain ⟨he, hes⟩ := List.forall_mem_cons.mp hliteral
  refine canonical_of_grouped ?_
  rw [hskeleton]
  refine Formula.FitsAt.canonical ?_
  have hrun := he.run
  clear he hfactors hskeleton hliteral
  generalize e.skeleton = f at hrun
  induction es generalizing f with
  | nil => exact hrun
  | cons e' es ih =>
      obtain ⟨he', hes⟩ := List.forall_mem_cons.mp hes
      exact ih hes (.and f e'.skeleton) ⟨hrun, he'⟩

end SqlxData.Dynamic
