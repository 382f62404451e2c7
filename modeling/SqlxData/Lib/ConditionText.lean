import SqlxData.Lib.BoolText

/-!
Search conditions as characters. A text is cut into lexemes, the predicates in
it (comparisons, IS NULL, IN, BETWEEN, LIKE) are read with the words that
belong to them, and what is left is read with NOT over AND over OR. The AND of
a BETWEEN belongs to the BETWEEN.

A formula of well-formed predicates in canonical shape is read back as itself
(`readCondition_spell`).
-/

namespace ConditionText

open BoolText

abbrev Word := List Char

/-! ### Lexemes -/

inductive Keyword
  | and
  | or
  | not
  | is
  | null
  | in
  | between
  | like
  | ilike
  | escape
  deriving DecidableEq, Repr

def Keyword.word : Keyword → Word
  | and => ['A', 'N', 'D']
  | or => ['O', 'R']
  | not => ['N', 'O', 'T']
  | is => ['I', 'S']
  | null => ['N', 'U', 'L', 'L']
  | «in» => ['I', 'N']
  | between => ['B', 'E', 'T', 'W', 'E', 'E', 'N']
  | like => ['L', 'I', 'K', 'E']
  | ilike => ['I', 'L', 'I', 'K', 'E']
  | escape => ['E', 'S', 'C', 'A', 'P', 'E']

def keywords : List Keyword :=
  [.and, .or, .not, .is, .null, .in, .between, .like, .ilike, .escape]

/-- The keyword a word is, in any letter case. -/
def keywordOf (w : Word) : Option Keyword := keywords.find? (·.word = w.map Char.toUpper)

inductive Lexeme
  /-- A name, with the dots inside it, or a placeholder or number. -/
  | word (w : Word)
  | keyword (k : Keyword)
  | operator (w : Word)
  /-- A string literal, without its quotes. -/
  | literal (w : Word)
  | lparen
  | rparen
  | comma
  deriving DecidableEq, Repr

inductive CharClass
  | blank
  | word
  | operator
  | quote
  | single (l : Lexeme)
  deriving DecidableEq

/-- Letters, digits, and what names and placeholders are written with. -/
def isWordChar (c : Char) : Bool :=
  c.isAlphanum || c = '_' || c = '.' || c = '$' || c = '?' || 128 ≤ c.toNat

def charClass (c : Char) : CharClass :=
  if c = '(' then .single .lparen
  else if c = ')' then .single .rparen
  else if c = ',' then .single .comma
  else if c = '\'' then .quote
  else if c.isWhitespace then .blank
  else if isWordChar c then .word
  else .operator

/-- All characters are of the class. -/
def ofClass (k : CharClass) (w : Word) : Bool := w.all (charClass · = k)

theorem ofClass_cons {k : CharClass} {c : Char} {w : Word} :
    ofClass k (c :: w) ↔ charClass c = k ∧ ofClass k w := by
  simp [ofClass]

/-- What the scan is in the middle of; the characters read so far stand
backwards. -/
inductive Mode
  | start
  | word (acc : List Char)
  | operator (acc : List Char)
  | literal (acc : List Char)
  /-- Behind a quote that ends the literal unless another one follows. -/
  | closing (acc : List Char)

def Mode.flush : Mode → List Lexeme
  | start => []
  | word acc => [match keywordOf acc.reverse with
      | some k => .keyword k
      | none => .word acc.reverse]
  | operator acc => [.operator acc.reverse]
  | literal acc => [.literal acc.reverse]
  | closing acc => [.literal acc.reverse]

def lexFrom : Mode → List Char → List Lexeme
  | mode, [] => mode.flush
  | .literal acc, c :: cs =>
      if c = '\'' then lexFrom (.closing acc) cs else lexFrom (.literal (c :: acc)) cs
  | mode, c :: cs =>
      match charClass c, mode with
      | .word, .word acc => lexFrom (.word (c :: acc)) cs
      | .word, mode => mode.flush ++ lexFrom (.word [c]) cs
      | .operator, .operator acc => lexFrom (.operator (c :: acc)) cs
      | .operator, mode => mode.flush ++ lexFrom (.operator [c]) cs
      | .quote, .closing acc => lexFrom (.literal (c :: acc)) cs
      | .quote, mode => mode.flush ++ lexFrom (.literal []) cs
      | .blank, mode => mode.flush ++ lexFrom .start cs
      | .single l, mode => mode.flush ++ l :: lexFrom .start cs

def lex (cs : List Char) : List Lexeme := lexFrom .start cs

/-! ### Predicates -/

inductive Operand
  | word (w : Word)
  | call (f arg : Word)
  deriving DecidableEq, Repr

inductive Predicate
  | compare (op : Word) (a b : Operand)
  | isNull (negated : Bool) (a : Operand)
  | inList (negated : Bool) (a : Operand) (w : Word) (ws : List Word)
  | between (negated : Bool) (a low high : Operand)
  | like (insensitive negated : Bool) (a pattern : Operand) (escape : Option Word)
  deriving DecidableEq, Repr

/-! ### Reading -/

def readOperand : List Lexeme → Option (Operand × List Lexeme)
  | .word f :: .lparen :: .word arg :: .rparen :: rest => some (.call f arg, rest)
  | .word w :: rest => some (.word w, rest)
  | _ => none

/-- The list of an IN, from behind its first word to the closing parenthesis. -/
def readWords : List Lexeme → Option (List Word × List Lexeme)
  | .comma :: .word w :: rest => (readWords rest).map fun r => (w :: r.1, r.2)
  | .rparen :: rest => some ([], rest)
  | _ => none

/-- The ESCAPE of a LIKE, if there is one. -/
def readEscape : List Lexeme → Option Word × List Lexeme
  | .keyword .escape :: .literal w :: rest => (some w, rest)
  | rest => (none, rest)

def readLike (insensitive negated : Bool) (a : Operand) (rest : List Lexeme) :
    Option (Predicate × List Lexeme) := do
  let (pattern, rest) ← readOperand rest
  let (escape, rest) := readEscape rest
  some (.like insensitive negated a pattern escape, rest)

def readBetween (negated : Bool) (a : Operand) (rest : List Lexeme) :
    Option (Predicate × List Lexeme) := do
  let (low, rest) ← readOperand rest
  match rest with
  | .keyword .and :: rest => do
      let (high, rest) ← readOperand rest
      some (.between negated a low high, rest)
  | _ => none

/-- What follows an operand and the NOT behind it. -/
def readMembership (negated : Bool) (a : Operand) : List Lexeme → Option (Predicate × List Lexeme)
  | .keyword .in :: .lparen :: .word w :: rest =>
      (readWords rest).map fun r => (.inList negated a w r.1, r.2)
  | .keyword .between :: rest => readBetween negated a rest
  | .keyword .like :: rest => readLike false negated a rest
  | .keyword .ilike :: rest => readLike true negated a rest
  | _ => none

def readBehind (a : Operand) : List Lexeme → Option (Predicate × List Lexeme)
  | .operator op :: rest => (readOperand rest).map fun r => (.compare op a r.1, r.2)
  | .keyword .is :: .keyword .null :: rest => some (.isNull false a, rest)
  | .keyword .is :: .keyword .not :: .keyword .null :: rest => some (.isNull true a, rest)
  | .keyword .not :: rest => readMembership true a rest
  | rest => readMembership false a rest

def readPredicate (ls : List Lexeme) : Option (Predicate × List Lexeme) := do
  let (a, rest) ← readOperand ls
  readBehind a rest

/-- The tokens of a condition, its predicates read. -/
def readTokens : ℕ → List Lexeme → Option (List (Token Predicate))
  | _, [] => some []
  | 0, _ => none
  | fuel + 1, l :: ls =>
      match l with
      | .keyword .and => (readTokens fuel ls).map (.and :: ·)
      | .keyword .or => (readTokens fuel ls).map (.or :: ·)
      | .keyword .not => (readTokens fuel ls).map (.not :: ·)
      | .lparen => (readTokens fuel ls).map (.lparen :: ·)
      | .rparen => (readTokens fuel ls).map (.rparen :: ·)
      | _ => do
          let (p, rest) ← readPredicate (l :: ls)
          (readTokens fuel rest).map (.operand p :: ·)

/-- Read a condition. Every token takes a lexeme. -/
def readCondition (cs : List Char) : Option (Formula Predicate) := do
  let ts ← readTokens (lex cs).length (lex cs)
  read ts

/-! ### Writing -/

def Lexeme.spell : Lexeme → List Char
  | word w => w
  | keyword k => k.word
  | operator w => w
  | literal w => '\'' :: w ++ ['\'']
  | lparen => ['(']
  | rparen => [')']
  | comma => [',']

/-- A lexeme, and whether a blank stands in front of it. -/
abbrev Item := Bool × Lexeme

def spell (items : List Item) : List Char :=
  items.flatMap fun i => (if i.1 then [' '] else []) ++ i.2.spell

@[simp] theorem spell_nil : spell [] = [] := rfl

@[simp] theorem spell_cons (blank : Bool) (l : Lexeme) (is : List Item) :
    spell ((blank, l) :: is) = (if blank then [' '] else []) ++ (l.spell ++ spell is) := by
  simp [spell]

@[simp] theorem spell_append (is js : List Item) : spell (is ++ js) = spell is ++ spell js := by
  simp [spell]

def Operand.items (blank : Bool) : Operand → List Item
  | word w => [(blank, .word w)]
  | call f arg => [(blank, .word f), (false, .lparen), (false, .word arg), (false, .rparen)]

/-- A keyword behind an operand, with NOT or without. -/
def negatable (negated : Bool) (k : Keyword) : List Item :=
  if negated then [(true, .keyword .not), (true, .keyword k)] else [(true, .keyword k)]

def escapeItems : Option Word → List Item
  | some w => [(true, .keyword .escape), (true, .literal w)]
  | none => []

def wordItems (ws : List Word) : List Item :=
  ws.flatMap (fun w => [(false, .comma), (true, .word w)]) ++ [(false, .rparen)]

def Predicate.items (blank : Bool) : Predicate → List Item
  | compare op a b => a.items blank ++ (true, .operator op) :: b.items true
  | isNull negated a =>
      a.items blank ++ (true, .keyword .is) :: negatable negated .null
  | inList negated a w ws =>
      a.items blank ++ (negatable negated .in ++ (true, .lparen) :: (false, .word w) :: wordItems ws)
  | between negated a low high =>
      a.items blank ++
        (negatable negated .between ++ (low.items true ++ (true, .keyword .and) :: high.items true))
  | like insensitive negated a pattern escape =>
      a.items blank ++ (negatable negated (if insensitive then .ilike else .like) ++
        (pattern.items true ++ escapeItems escape))

def formulaItems (blank : Bool) : Formula Predicate → List Item
  | .operand p => p.items blank
  | .not f => (blank, .keyword .not) :: formulaItems true f
  | .and f g => formulaItems blank f ++ (true, .keyword .and) :: formulaItems true g
  | .or f g => formulaItems blank f ++ (true, .keyword .or) :: formulaItems true g
  | .paren f => (blank, .lparen) :: (formulaItems false f ++ [(false, .rparen)])

/-- The text of a formula. -/
def spellFormula (f : Formula Predicate) : List Char := spell (formulaItems false f)

/-! ### Cutting a written text -/

/-- The lexeme is read as what it is. -/
def Lexeme.WellFormed : Lexeme → Prop
  | word w => w ≠ [] ∧ ofClass .word w ∧ keywordOf w = none
  | operator w => w ≠ [] ∧ ofClass .operator w
  | literal w => '\'' ∉ w
  | _ => True

def Lexeme.isSingle : Lexeme → Bool
  | lparen | rparen | comma => true
  | _ => false

/-- The items begin with something no lexeme continues with. -/
def Cut : List Item → Prop
  | [] => True
  | i :: _ => i.1 ∨ i.2.isSingle

/-- No item runs into the next one. -/
def Spaced : List Item → Prop
  | [] => True
  | i :: is => (i.2.isSingle ∨ Cut is) ∧ Spaced is

theorem Spaced.append {is js : List Item} (his : Spaced is) (hjs : Spaced js) (hcut : Cut js) :
    Spaced (is ++ js) := by
  induction is with
  | nil => exact hjs
  | cons i is ih =>
      refine ⟨his.1.imp_right fun h => ?_, ih his.2⟩
      cases is with
      | nil => exact hcut
      | cons j is => exact h

/-- The text begins with a blank, a parenthesis or a comma, or is empty. -/
def CutText (cs : List Char) : Prop :=
  ∀ c ∈ cs.head?, charClass c = .blank ∨ ∃ l, charClass c = .single l

theorem cutText_spell {is : List Item} (h : Cut is) : CutText (spell is) := by
  rcases is with _ | ⟨⟨blank, l⟩, is⟩
  · simp [CutText, spell]
  · cases blank
    · have hl : l.isSingle = true := by simpa [Cut] using h
      cases l <;> simp_all [CutText, spell, Lexeme.spell, Lexeme.isSingle, charClass]
    · simp [CutText, spell, charClass]

attribute [local simp] lexFrom

/-- A mode ends at a character that does not continue it. -/
theorem lexFrom_flush {mode : Mode} {c : Char}
    (h : charClass c = .blank ∨ ∃ l, charClass c = .single l) (hmode : ∀ acc, mode ≠ .literal acc)
    (cs : List Char) : lexFrom mode (c :: cs) = mode.flush ++ lexFrom .start (c :: cs) := by
  rcases h with h | ⟨l, h⟩ <;> cases mode <;> simp_all [lexFrom, Mode.flush]

theorem lexFrom_word {w : Word} (hw : ofClass .word w) (acc rest : List Char) :
    lexFrom (.word acc) (w ++ rest) = lexFrom (.word (w.reverse ++ acc)) rest := by
  induction w generalizing acc with
  | nil => rfl
  | cons c w ih =>
      obtain ⟨hc, hw⟩ := ofClass_cons.mp hw
      have hstep : lexFrom (.word acc) (c :: (w ++ rest)) =
          lexFrom (.word (c :: acc)) (w ++ rest) := by simp [lexFrom, hc]
      rw [List.cons_append, hstep, ih hw, List.reverse_cons, List.append_assoc,
        List.singleton_append]

theorem lexFrom_operator {w : Word} (hw : ofClass .operator w) (acc rest : List Char) :
    lexFrom (.operator acc) (w ++ rest) = lexFrom (.operator (w.reverse ++ acc)) rest := by
  induction w generalizing acc with
  | nil => rfl
  | cons c w ih =>
      obtain ⟨hc, hw⟩ := ofClass_cons.mp hw
      have hstep : lexFrom (.operator acc) (c :: (w ++ rest)) =
          lexFrom (.operator (c :: acc)) (w ++ rest) := by simp [lexFrom, hc]
      rw [List.cons_append, hstep, ih hw, List.reverse_cons, List.append_assoc,
        List.singleton_append]

theorem lexFrom_literal {w : Word} (hw : '\'' ∉ w) (acc rest : List Char) :
    lexFrom (.literal acc) (w ++ '\'' :: rest) = lexFrom (.closing (w.reverse ++ acc)) rest := by
  induction w generalizing acc with
  | nil => simp [lexFrom]
  | cons c w ih =>
      obtain ⟨hc, hw⟩ : '\'' ≠ c ∧ '\'' ∉ w := by simpa using hw
      rw [List.cons_append, lexFrom, if_neg (Ne.symm hc), ih hw]
      simp

/-- A mode ends with the text or in front of a cut. -/
theorem lexFrom_cut {mode : Mode} (hmode : ∀ acc, mode ≠ .literal acc) {rest : List Char}
    (hrest : CutText rest) : lexFrom mode rest = mode.flush ++ lexFrom .start rest := by
  cases rest with
  | nil => simp [lexFrom, Mode.flush]
  | cons c cs => exact lexFrom_flush (hrest c rfl) hmode cs

theorem keywordOf_word (k : Keyword) : keywordOf k.word = some k := by
  cases k <;> decide

theorem ofClass_keyword (k : Keyword) : k.word ≠ [] ∧ ofClass .word k.word := by
  cases k <;> decide

/-- A word in front of a cut. -/
theorem lexFrom_start_word {w : Word} (hne : w ≠ []) (hw : ofClass .word w)
    {rest : List Char} (hrest : CutText rest) :
    lexFrom .start (w ++ rest) = (Mode.word w.reverse).flush ++ lexFrom .start rest := by
  obtain ⟨c, w, rfl⟩ := List.exists_cons_of_ne_nil hne
  obtain ⟨hc, hw⟩ := ofClass_cons.mp hw
  have hstart : lexFrom .start (c :: (w ++ rest)) = lexFrom (.word [c]) (w ++ rest) := by
    simp [lexFrom, hc, Mode.flush]
  rw [List.cons_append, hstart, lexFrom_word hw, lexFrom_cut (by simp) hrest, List.reverse_cons]

theorem lexFrom_start_lexeme {l : Lexeme} (hl : l.WellFormed) {rest : List Char}
    (hrest : l.isSingle ∨ CutText rest) :
    lexFrom .start (l.spell ++ rest) = l :: lexFrom .start rest := by
  cases l with
  | word w =>
      obtain ⟨hne, hw, hkeyword⟩ := hl
      rw [Lexeme.spell, lexFrom_start_word hne hw (by simpa [Lexeme.isSingle] using hrest)]
      simp [Mode.flush, hkeyword]
  | keyword k =>
      obtain ⟨hne, hw⟩ := ofClass_keyword k
      rw [Lexeme.spell, lexFrom_start_word hne hw (by simpa [Lexeme.isSingle] using hrest)]
      simp [Mode.flush, keywordOf_word]
  | operator w =>
      obtain ⟨hne, hw⟩ := hl
      obtain ⟨c, w, rfl⟩ := List.exists_cons_of_ne_nil hne
      obtain ⟨hc, hw⟩ := ofClass_cons.mp hw
      have hstart : lexFrom .start (c :: (w ++ rest)) = lexFrom (.operator [c]) (w ++ rest) := by
        simp [lexFrom, hc, Mode.flush]
      rw [Lexeme.spell, List.cons_append, hstart, lexFrom_operator hw,
        lexFrom_cut (by simp) (by simpa [Lexeme.isSingle] using hrest)]
      simp [Mode.flush]
  | literal w =>
      have hstart : lexFrom .start ('\'' :: (w ++ '\'' :: rest)) =
          lexFrom (.literal []) (w ++ '\'' :: rest) := by
        simp [lexFrom, charClass, Mode.flush]
      rw [Lexeme.spell, List.append_assoc, List.cons_append, List.singleton_append, hstart,
        lexFrom_literal hl, lexFrom_cut (by simp) (by simpa [Lexeme.isSingle] using hrest)]
      simp [Mode.flush]
  | lparen => simp [Lexeme.spell, lexFrom, charClass, Mode.flush]
  | rparen => simp [Lexeme.spell, lexFrom, charClass, Mode.flush]
  | comma => simp [Lexeme.spell, lexFrom, charClass, Mode.flush]

/-- Written items are cut into their lexemes. -/
theorem lex_spell {is : List Item} (hspaced : Spaced is) (hwell : ∀ i ∈ is, i.2.WellFormed) :
    lex (spell is) = is.map Prod.snd := by
  induction is with
  | nil => rfl
  | cons i is ih =>
      obtain ⟨hi, his⟩ := List.forall_mem_cons.mp hwell
      have hblank : lexFrom .start ((if i.1 then [' '] else []) ++ (i.2.spell ++ spell is)) =
          lexFrom .start (i.2.spell ++ spell is) := by
        cases i.1 <;> simp [lexFrom, charClass, Mode.flush]
      have hspell : spell (i :: is) =
          (if i.1 then [' '] else []) ++ (i.2.spell ++ spell is) := by simp [spell]
      rw [lex, hspell, hblank, lexFrom_start_lexeme hi (hspaced.1.imp_right cutText_spell)]
      exact congrArg (i.2 :: ·) (ih hspaced.2 his)

/-! ### The items of a formula -/

@[simp] theorem Operand.cut_items (a : Operand) (is : List Item) : Cut (a.items true ++ is) := by
  cases a <;> simp [Operand.items, Cut]

theorem Operand.spaced_items (a : Operand) (blank : Bool) : Spaced (a.items blank) := by
  cases a <;> simp [Operand.items, Spaced, Cut, Lexeme.isSingle]

@[simp] theorem cut_negatable (negated : Bool) (k : Keyword) (is : List Item) :
    Cut (negatable negated k ++ is) := by
  cases negated <;> simp [negatable, Cut]

theorem spaced_negatable (negated : Bool) (k : Keyword) {is : List Item} (his : Spaced is)
    (hcut : Cut is) : Spaced (negatable negated k ++ is) := by
  cases negated with
  | false => exact ⟨.inr hcut, his⟩
  | true => exact ⟨.inr (.inl rfl), .inr hcut, his⟩

theorem spaced_wordItems (ws : List Word) : Spaced (wordItems ws) ∧ Cut (wordItems ws) := by
  induction ws with
  | nil => simp [wordItems, Spaced, Cut, Lexeme.isSingle]
  | cons w ws ih =>
      rw [wordItems, List.flatMap_cons, List.append_assoc]
      exact ⟨⟨.inl rfl, .inr ih.2, ih.1⟩, .inr rfl⟩

theorem spaced_escapeItems (escape : Option Word) :
    Spaced (escapeItems escape) ∧ Cut (escapeItems escape) := by
  cases escape <;> simp [escapeItems, Spaced, Cut]

theorem Predicate.spaced_items (p : Predicate) (blank : Bool) : Spaced (p.items blank) := by
  cases p with
  | compare op a b =>
      exact (a.spaced_items blank).append ⟨.inr (by simpa using b.cut_items []), b.spaced_items true⟩
        (.inl rfl)
  | isNull negated a =>
      refine (a.spaced_items blank).append ⟨.inr ?_, ?_⟩ (.inl rfl)
      · simpa using cut_negatable negated .null []
      · simpa using @spaced_negatable negated .null [] trivial trivial
  | inList negated a w ws =>
      obtain ⟨hspaced, hcut⟩ := spaced_wordItems ws
      refine (a.spaced_items blank).append (spaced_negatable negated .in ?_ (.inl rfl)) (by simp)
      exact ⟨.inl rfl, .inr hcut, hspaced⟩
  | between negated a low high =>
      refine (a.spaced_items blank).append (spaced_negatable negated .between ?_ (by simp)) (by simp)
      exact (low.spaced_items true).append
        ⟨.inr (by simpa using high.cut_items []), high.spaced_items true⟩ (.inl rfl)
  | like insensitive negated a pattern escape =>
      obtain ⟨hspaced, hcut⟩ := spaced_escapeItems escape
      refine (a.spaced_items blank).append (spaced_negatable negated _ ?_ (by simp)) (by simp)
      exact (pattern.spaced_items true).append hspaced hcut

@[simp] theorem Predicate.cut_items (p : Predicate) (is : List Item) : Cut (p.items true ++ is) := by
  cases p <;> simp [Predicate.items]

theorem cut_formulaItems (f : Formula Predicate) (is : List Item) :
    Cut (formulaItems true f ++ is) := by
  induction f generalizing is with
  | operand p => exact p.cut_items is
  | not f => exact .inl rfl
  | and f g ih => rw [formulaItems, List.append_assoc]; exact ih _
  | or f g ih => rw [formulaItems, List.append_assoc]; exact ih _
  | paren f => exact .inl rfl

theorem spaced_formulaItems (f : Formula Predicate) (blank : Bool) :
    Spaced (formulaItems blank f) := by
  have hcut (g : Formula Predicate) : Cut (formulaItems true g) := by
    simpa using cut_formulaItems g []
  induction f generalizing blank with
  | operand p => exact p.spaced_items blank
  | not f ih => exact ⟨.inr (hcut f), ih true⟩
  | and f g ihf ihg => exact (ihf blank).append ⟨.inr (hcut g), ihg true⟩ (.inl rfl)
  | or f g ihf ihg => exact (ihf blank).append ⟨.inr (hcut g), ihg true⟩ (.inl rfl)
  | paren f ih => exact ⟨.inl rfl, (ih false).append ⟨.inl rfl, trivial⟩ (.inr rfl)⟩

def Operand.lexemes (a : Operand) : List Lexeme := (a.items false).map Prod.snd

def Predicate.lexemes (p : Predicate) : List Lexeme := (p.items false).map Prod.snd

def formulaLexemes (f : Formula Predicate) : List Lexeme := (formulaItems false f).map Prod.snd

@[simp] theorem Operand.map_snd_items (a : Operand) (blank : Bool) :
    (a.items blank).map Prod.snd = a.lexemes := by
  cases a <;> rfl

@[simp] theorem Predicate.map_snd_items (p : Predicate) (blank : Bool) :
    (p.items blank).map Prod.snd = p.lexemes := by
  cases p <;> simp [Predicate.lexemes, Predicate.items]

@[simp] theorem map_snd_formulaItems (f : Formula Predicate) (blank : Bool) :
    (formulaItems blank f).map Prod.snd = formulaLexemes f := by
  induction f generalizing blank with
  | operand p => simp [formulaLexemes, formulaItems]
  | not f ih => simp [formulaLexemes, formulaItems]
  | and f g ihf ihg | or f g ihf ihg =>
      rw [formulaLexemes, formulaItems, formulaItems, List.map_append, List.map_append, List.map_cons,
        ihf blank, ihf false, ihg true]
  | paren f ih => simp [formulaLexemes, formulaItems]

/-- A blank in front is written in front. -/
@[simp] theorem Operand.spell_items_true (a : Operand) :
    spell (a.items true) = ' ' :: spell (a.items false) := by
  cases a <;> rfl

theorem Predicate.spell_items_true (p : Predicate) :
    spell (p.items true) = ' ' :: spell (p.items false) := by
  cases p <;> simp only [Predicate.items, spell_append, Operand.spell_items_true, List.cons_append]

theorem spell_formulaItems_true (f : Formula Predicate) :
    spell (formulaItems true f) = ' ' :: spellFormula f := by
  rw [spellFormula]
  induction f with
  | operand p => exact p.spell_items_true
  | not f ih => rfl
  | and f g ih => rw [formulaItems, formulaItems, spell_append, spell_append, ih, List.cons_append]
  | or f g ih => rw [formulaItems, formulaItems, spell_append, spell_append, ih, List.cons_append]
  | paren f ih => rfl

theorem spellFormula_not (f : Formula Predicate) :
    spellFormula (.not f) = "NOT ".toList ++ spellFormula f := by
  rw [spellFormula, formulaItems, spell_cons, spell_formulaItems_true]
  rfl

theorem spellFormula_and (f g : Formula Predicate) :
    spellFormula (.and f g) = spellFormula f ++ (" AND ".toList ++ spellFormula g) := by
  rw [spellFormula, formulaItems, spell_append, spell_cons, spell_formulaItems_true]
  rfl

theorem spellFormula_or (f g : Formula Predicate) :
    spellFormula (.or f g) = spellFormula f ++ (" OR ".toList ++ spellFormula g) := by
  rw [spellFormula, formulaItems, spell_append, spell_cons, spell_formulaItems_true]
  rfl

theorem spellFormula_paren (f : Formula Predicate) :
    spellFormula (.paren f) = "(".toList ++ (spellFormula f ++ ")".toList) := by
  rw [spellFormula, formulaItems, spell_cons, spell_append]
  rfl

/-! ### Reading a written predicate -/

/-- What may stand behind a predicate. -/
def Ends (rest : List Lexeme) : Prop :=
  rest.head? = none ∨ rest.head? = some (.keyword .and) ∨ rest.head? = some (.keyword .or) ∨
    rest.head? = some .rparen

theorem readOperand_lexemes (a : Operand) {rest : List Lexeme} (hrest : rest.head? ≠ some .lparen) :
    readOperand (a.lexemes ++ rest) = some (a, rest) := by
  cases a with
  | call f arg => rfl
  | word w =>
      rcases rest with _ | ⟨l, rest⟩
      · rfl
      · cases l <;> first | rfl | simp at hrest

theorem Ends.ne_lparen {rest : List Lexeme} (h : Ends rest) : rest.head? ≠ some .lparen := by
  rcases h with h | h | h | h <;> simp [h]

theorem readEscape_lexemes (escape : Option Word) {rest : List Lexeme} (hrest : Ends rest) :
    readEscape ((escapeItems escape).map Prod.snd ++ rest) = (escape, rest) := by
  cases escape with
  | some w => rfl
  | none =>
      rcases rest with _ | ⟨l, rest⟩
      · rfl
      · simp only [Ends, List.head?_cons] at hrest
        rcases hrest with h | h | h | h <;> simp at h <;> subst h <;> rfl

theorem readWords_lexemes (ws : List Word) (rest : List Lexeme) :
    readWords ((wordItems ws).map Prod.snd ++ rest) = some (ws, rest) := by
  induction ws with
  | nil => rfl
  | cons w ws ih =>
      have hcons : (wordItems (w :: ws)).map Prod.snd ++ rest =
          .comma :: .word w :: ((wordItems ws).map Prod.snd ++ rest) := by simp [wordItems]
      rw [hcons, readWords, ih]
      rfl

theorem readMembership_lexemes {negated : Bool} {a : Operand} {p : Predicate}
    {k : Keyword} {behind rest : List Lexeme}
    (hread : readMembership negated a (.keyword k :: (behind ++ rest)) = some (p, rest)) :
    readBehind a ((negatable negated k).map Prod.snd ++ (behind ++ rest)) = some (p, rest) := by
  cases negated with
  | true => exact hread
  | false =>
      cases k with
      | «in» | between | like | ilike => exact hread
      | and | or | not | is | null | escape => simp [readMembership] at hread

/-- A predicate is read up to its last lexeme. -/
theorem readPredicate_lexemes (p : Predicate) {rest : List Lexeme} (hrest : Ends rest) :
    readPredicate (p.lexemes ++ rest) = some (p, rest) := by
  have hbehind (a : Operand) {is : List Item} (hcut : (is.map Prod.snd).head? ≠ some .lparen)
      (hne : is ≠ []) (hread : readBehind a (is.map Prod.snd ++ rest) = some (p, rest)) :
      readPredicate (a.lexemes ++ (is.map Prod.snd ++ rest)) = some (p, rest) := by
    rw [readPredicate, readOperand_lexemes a]
    · exact hread
    · obtain ⟨i, is, rfl⟩ := List.exists_cons_of_ne_nil hne
      exact hcut
  have hnegatable (negated : Bool) (k : Keyword) (is : List Item) :
      ((negatable negated k ++ is).map Prod.snd).head? ≠ some .lparen ∧
        negatable negated k ++ is ≠ [] := by
    cases negated <;> simp [negatable]
  cases p with
  | compare op a b =>
      rw [Predicate.lexemes, Predicate.items, List.map_append, Operand.map_snd_items,
        List.append_assoc]
      refine hbehind a (by simp) (by simp) ?_
      rw [List.map_cons, Operand.map_snd_items, List.cons_append, readBehind,
        readOperand_lexemes b hrest.ne_lparen]
      rfl
  | isNull negated a =>
      rw [Predicate.lexemes, Predicate.items, List.map_append, Operand.map_snd_items,
        List.append_assoc]
      refine hbehind a (by simp) (by simp) ?_
      cases negated <;> rfl
  | inList negated a w ws =>
      obtain ⟨hhead, hne⟩ :=
        hnegatable negated .in ((true, .lparen) :: (false, .word w) :: wordItems ws)
      rw [Predicate.lexemes, Predicate.items, List.map_append, Operand.map_snd_items,
        List.append_assoc]
      refine hbehind a hhead hne ?_
      rw [List.map_append, List.append_assoc]
      refine readMembership_lexemes ?_
      rw [List.map_cons, List.map_cons, List.cons_append, List.cons_append, readMembership,
        readWords_lexemes]
      rfl
  | between negated a low high =>
      obtain ⟨hhead, hne⟩ := hnegatable negated .between
        (low.items true ++ (true, .keyword .and) :: high.items true)
      rw [Predicate.lexemes, Predicate.items, List.map_append, Operand.map_snd_items,
        List.append_assoc]
      refine hbehind a hhead hne ?_
      rw [List.map_append, List.append_assoc]
      refine readMembership_lexemes ?_
      rw [List.map_append, List.map_cons, Operand.map_snd_items, Operand.map_snd_items,
        List.append_assoc, readMembership, readBetween, readOperand_lexemes low (by simp)]
      simp only [Option.bind_eq_bind, Option.bind_some, List.cons_append]
      rw [readOperand_lexemes high hrest.ne_lparen]
      rfl
  | like insensitive negated a pattern escape =>
      obtain ⟨hhead, hne⟩ := hnegatable negated (if insensitive then .ilike else .like)
        (pattern.items true ++ escapeItems escape)
      rw [Predicate.lexemes, Predicate.items, List.map_append, Operand.map_snd_items,
        List.append_assoc]
      refine hbehind a hhead hne ?_
      rw [List.map_append, List.append_assoc]
      refine readMembership_lexemes ?_
      have hescape : ((escapeItems escape).map Prod.snd ++ rest).head? ≠ some .lparen := by
        cases escape with
        | some w => simp [escapeItems]
        | none => exact hrest.ne_lparen
      have hlike : readLike insensitive negated a
          ((pattern.items true ++ escapeItems escape).map Prod.snd ++ rest) =
            some (.like insensitive negated a pattern escape, rest) := by
        rw [List.map_append, Operand.map_snd_items, List.append_assoc, readLike,
          readOperand_lexemes pattern hescape]
        simp only [Option.bind_eq_bind, Option.bind_some, readEscape_lexemes escape hrest]
      cases insensitive <;> exact hlike

theorem Predicate.exists_lexemes (p : Predicate) : ∃ w ls, p.lexemes = .word w :: ls := by
  have (a : Operand) : ∃ w ls, a.lexemes = .word w :: ls := by
    cases a <;> exact ⟨_, _, rfl⟩
  cases p with
  | compare op a b | isNull negated a | inList negated a w ws | between negated a low high
  | like insensitive negated a pattern escape =>
      obtain ⟨w, ls, ha⟩ := this a
      simp [Predicate.lexemes, Predicate.items, ha]

theorem formulaLexemes_not (f : Formula Predicate) :
    formulaLexemes (.not f) = .keyword .not :: formulaLexemes f := by
  rw [formulaLexemes, formulaItems, List.map_cons, map_snd_formulaItems]

theorem formulaLexemes_and (f g : Formula Predicate) :
    formulaLexemes (.and f g) = formulaLexemes f ++ .keyword .and :: formulaLexemes g := by
  rw [formulaLexemes, formulaItems, List.map_append, List.map_cons, map_snd_formulaItems,
    map_snd_formulaItems]

theorem formulaLexemes_or (f g : Formula Predicate) :
    formulaLexemes (.or f g) = formulaLexemes f ++ .keyword .or :: formulaLexemes g := by
  rw [formulaLexemes, formulaItems, List.map_append, List.map_cons, map_snd_formulaItems,
    map_snd_formulaItems]

theorem formulaLexemes_paren (f : Formula Predicate) :
    formulaLexemes (.paren f) = .lparen :: (formulaLexemes f ++ [.rparen]) := by
  rw [formulaLexemes, formulaItems, List.map_cons, List.map_append, map_snd_formulaItems,
    List.map_singleton]

/-- The tokens of a formula are read one after another. -/
theorem readTokens_lexemes (f : Formula Predicate) (fuel : ℕ) {rest : List Lexeme}
    (hrest : Ends rest) :
    readTokens (fuel + f.print.length) (formulaLexemes f ++ rest) =
      (readTokens fuel rest).map (f.print ++ ·) := by
  induction f generalizing fuel rest with
  | operand p =>
      obtain ⟨w, ls, hp⟩ := p.exists_lexemes
      have hread := readPredicate_lexemes p hrest
      have hlexemes : formulaLexemes (.operand p) = p.lexemes := rfl
      rw [hlexemes]
      rw [hp, List.cons_append] at hread ⊢
      simp only [Formula.print, List.length_singleton, readTokens, hread]
      rfl
  | not f ih =>
      rw [formulaLexemes_not, Formula.print, List.cons_append, List.length_cons, ← Nat.add_assoc,
        readTokens, ih fuel hrest, Option.map_map]
      rfl
  | and f g ihf ihg =>
      rw [formulaLexemes_and, Formula.print, List.length_append, List.length_cons,
        List.append_assoc, List.cons_append,
        show fuel + (f.print.length + (g.print.length + 1)) =
          fuel + g.print.length + 1 + f.print.length by omega,
        ihf _ (.inr (.inl rfl)), readTokens, ihg fuel hrest, Option.map_map, Option.map_map]
      congr 1
      funext ts
      simp
  | or f g ihf ihg =>
      rw [formulaLexemes_or, Formula.print, List.length_append, List.length_cons,
        List.append_assoc, List.cons_append,
        show fuel + (f.print.length + (g.print.length + 1)) =
          fuel + g.print.length + 1 + f.print.length by omega,
        ihf _ (.inr (.inr (.inl rfl))), readTokens, ihg fuel hrest, Option.map_map, Option.map_map]
      congr 1
      funext ts
      simp
  | paren f ih =>
      rw [formulaLexemes_paren, Formula.print, List.cons_append, List.cons_append,
        List.length_cons, List.length_append, List.length_singleton, List.append_assoc,
        List.singleton_append,
        show fuel + (f.print.length + 1 + 1) = fuel + 1 + f.print.length + 1 by omega,
        readTokens, ih (fuel + 1) (.inr (.inr (.inr rfl))), readTokens, Option.map_map,
        Option.map_map]
      congr 1
      funext ts
      simp

/-! ### Reading a written formula -/

/-- Every lexeme of the predicate is read as what it is. -/
def Predicate.WellFormed (p : Predicate) : Prop := ∀ l ∈ p.lexemes, l.WellFormed

def Operand.WellFormed (a : Operand) : Prop := ∀ l ∈ a.lexemes, l.WellFormed

theorem wellFormed_negatable (negated : Bool) (k : Keyword) :
    ∀ l ∈ (negatable negated k).map Prod.snd, l.WellFormed := by
  cases negated <;> simp [negatable, Lexeme.WellFormed]

section WellFormed

variable {a b : Operand} (ha : a.WellFormed) (hb : b.WellFormed)
include ha

theorem Predicate.wellFormed_isNull (negated : Bool) : (isNull negated a).WellFormed := by
  rw [Predicate.WellFormed, lexemes, items, List.map_append, Operand.map_snd_items]
  exact List.forall_mem_append.mpr ⟨ha, List.forall_mem_cons.mpr
    ⟨trivial, wellFormed_negatable negated .null⟩⟩

theorem Predicate.wellFormed_inList (negated : Bool) {w : Word} {ws : List Word}
    (hw : ∀ w' ∈ w :: ws, (Lexeme.word w').WellFormed) : (inList negated a w ws).WellFormed := by
  have hwords : ∀ l ∈ (wordItems ws).map Prod.snd, l.WellFormed := by
    intro l hl
    simp only [wordItems, List.map_append, List.map_flatMap, List.map_cons, List.map_nil,
      List.mem_append, List.mem_flatMap, List.mem_cons, List.not_mem_nil, or_false] at hl
    rcases hl with ⟨w', hw', rfl | rfl⟩ | rfl
    · trivial
    · exact hw w' (List.mem_cons_of_mem w hw')
    · trivial
  rw [Predicate.WellFormed, lexemes, items, List.map_append, List.map_append, Operand.map_snd_items]
  exact List.forall_mem_append.mpr ⟨ha, List.forall_mem_append.mpr ⟨wellFormed_negatable negated .in,
    List.forall_mem_cons.mpr ⟨trivial, List.forall_mem_cons.mpr ⟨hw w (by simp), hwords⟩⟩⟩⟩

include hb

theorem Predicate.wellFormed_compare {op : Word} (hop : (Lexeme.operator op).WellFormed) :
    (compare op a b).WellFormed := by
  rw [Predicate.WellFormed, lexemes, items, List.map_append, List.map_cons, Operand.map_snd_items,
    Operand.map_snd_items]
  exact List.forall_mem_append.mpr ⟨ha, List.forall_mem_cons.mpr ⟨hop, hb⟩⟩

theorem Predicate.wellFormed_between (negated : Bool) {c : Operand} (hc : c.WellFormed) :
    (between negated a b c).WellFormed := by
  rw [Predicate.WellFormed, lexemes, items, List.map_append, List.map_append, List.map_append,
    List.map_cons, Operand.map_snd_items, Operand.map_snd_items, Operand.map_snd_items]
  exact List.forall_mem_append.mpr ⟨ha, List.forall_mem_append.mpr
    ⟨wellFormed_negatable negated .between, List.forall_mem_append.mpr
      ⟨hb, List.forall_mem_cons.mpr ⟨trivial, hc⟩⟩⟩⟩

theorem Predicate.wellFormed_like (insensitive negated : Bool) {escape : Option Word}
    (hescape : ∀ w ∈ escape, '\'' ∉ w) : (like insensitive negated a b escape).WellFormed := by
  have hitems : ∀ l ∈ (escapeItems escape).map Prod.snd, l.WellFormed := by
    cases escape with
    | none => simp [escapeItems]
    | some w => simpa [escapeItems, Lexeme.WellFormed] using hescape
  rw [Predicate.WellFormed, lexemes, items, List.map_append, List.map_append, List.map_append,
    Operand.map_snd_items, Operand.map_snd_items]
  exact List.forall_mem_append.mpr ⟨ha, List.forall_mem_append.mpr
    ⟨wellFormed_negatable negated _, List.forall_mem_append.mpr ⟨hb, hitems⟩⟩⟩

end WellFormed

theorem wellFormed_formulaLexemes {f : Formula Predicate} (hf : ∀ p ∈ f.operands, p.WellFormed) :
    ∀ l ∈ formulaLexemes f, l.WellFormed := by
  have hplain (l : Lexeme) (ls : List Lexeme) (hl : l.WellFormed) (hls : ∀ l ∈ ls, l.WellFormed) :
      ∀ l' ∈ l :: ls, l'.WellFormed := List.forall_mem_cons.mpr ⟨hl, hls⟩
  induction f with
  | operand p => exact hf p (by simp [Formula.operands])
  | not f ih =>
      rw [formulaLexemes_not]
      exact hplain _ _ trivial (ih hf)
  | and f g ihf ihg =>
      obtain ⟨hf, hg⟩ := List.forall_mem_append.mp hf
      rw [formulaLexemes_and]
      exact List.forall_mem_append.mpr ⟨ihf hf, hplain _ _ trivial (ihg hg)⟩
  | or f g ihf ihg =>
      obtain ⟨hf, hg⟩ := List.forall_mem_append.mp hf
      rw [formulaLexemes_or]
      exact List.forall_mem_append.mpr ⟨ihf hf, hplain _ _ trivial (ihg hg)⟩
  | paren f ih =>
      rw [formulaLexemes_paren]
      exact hplain _ _ trivial (List.forall_mem_append.mpr ⟨ih hf, hplain _ _ trivial (by simp)⟩)

theorem length_print_le (f : Formula Predicate) : f.print.length ≤ (formulaLexemes f).length := by
  induction f with
  | operand p =>
      obtain ⟨w, ls, hp⟩ := p.exists_lexemes
      have hlexemes : formulaLexemes (.operand p) = p.lexemes := rfl
      simp [hlexemes, hp, Formula.print]
  | not f ih => simpa [formulaLexemes_not, Formula.print] using ih
  | and f g ihf ihg =>
      simp only [formulaLexemes_and, Formula.print, List.length_append, List.length_cons]
      omega
  | or f g ihf ihg =>
      simp only [formulaLexemes_or, Formula.print, List.length_append, List.length_cons]
      omega
  | paren f ih =>
      simpa [formulaLexemes_paren, Formula.print] using ih

/-- The text of a canonical formula with well-formed predicates is read back as
the formula. -/
theorem readCondition_spell {f : Formula Predicate} (hcanonical : f.Canonical)
    (hwell : ∀ p ∈ f.operands, p.WellFormed) : readCondition (spellFormula f) = some f := by
  have hlexemes := wellFormed_formulaLexemes hwell
  have hlex : lex (spellFormula f) = formulaLexemes f := by
    refine lex_spell (spaced_formulaItems f false) fun i hi => hlexemes i.2 ?_
    exact List.mem_map_of_mem hi
  obtain ⟨fuel, hfuel⟩ := Nat.exists_eq_add_of_le' (length_print_le f)
  have htokens : readTokens (formulaLexemes f).length (formulaLexemes f) = some f.print := by
    have h := @readTokens_lexemes f fuel [] (.inl rfl)
    rw [List.append_nil, ← hfuel] at h
    rw [h]
    simp [readTokens]
  rw [readCondition, hlex, htokens]
  exact read_print hcanonical

end ConditionText
