import SqlxData.Macros.AliasSystem

/-!
References in texts. Two references never overlap, since no name contains a
brace. A text whose braces all belong to references is read as a list of
pieces, and its expansion puts the expansion of the content in for each
reference.
-/

namespace SqlxData.Macros

/-! ### Patterns -/

theorem IsName.open_not_mem {name : List Char} (h : IsName name) : '{' ∉ name :=
  h.not_mem (by decide)

theorem IsName.close_not_mem {name : List Char} (h : IsName name) : '}' ∉ name :=
  h.not_mem (by decide)

theorem aliasPattern_eq (name : List Char) :
    aliasPattern name = '{' :: '{' :: (name ++ ['}', '}']) := rfl

theorem aliasPattern_append (name rest : List Char) :
    aliasPattern name ++ rest = '{' :: '{' :: (name ++ '}' :: '}' :: rest) := by
  simp [aliasPattern]

theorem aliasPattern_ne_nil (name : List Char) : aliasPattern name ≠ [] := by simp [aliasPattern]

theorem aliasPattern_append_inj {name name' rest rest' : List Char} (hname : '}' ∉ name)
    (hname' : '}' ∉ name') (h : aliasPattern name ++ rest = aliasPattern name' ++ rest') :
    name = name' ∧ rest = rest' := by
  rw [aliasPattern_append, aliasPattern_append] at h
  have htail : name ++ '}' :: '}' :: rest = name' ++ '}' :: '}' :: rest' := by simpa using h
  have hcut := Text.splitOnce_append hname ('}' :: rest)
  rw [htail, Text.splitOnce_append hname'] at hcut
  cases hcut
  exact ⟨rfl, rfl⟩

theorem eq_of_begins {name name' rest : List Char} (hname : '}' ∉ name)
    (hname' : '}' ∉ name') (h : aliasPattern name <+: aliasPattern name' ++ rest) :
    name = name' := by
  obtain ⟨rest', h⟩ := h
  exact (aliasPattern_append_inj hname hname' h).1

/-- No reference begins at the second brace of another. -/
theorem not_prefix_second {name name' rest : List Char} (hname' : IsName name') :
    ¬ aliasPattern name <+: '{' :: (name' ++ '}' :: '}' :: rest) := by
  obtain ⟨c, cs, hcs⟩ := List.exists_cons_of_ne_nil hname'.ne_nil
  intro h
  have hc : '{' = c := by
    rw [hcs] at h
    exact (List.cons_prefix_cons.mp (List.cons_prefix_cons.mp h).2).1
  apply hname'.open_not_mem
  rw [hc, hcs]
  exact List.mem_cons_self

theorem open_not_mem_closed {name : List Char} (h : IsName name) : '{' ∉ name ++ ['}', '}'] := by
  simpa using h.open_not_mem

/-- A reference in a text that begins with a reference. -/
theorem aliasPattern_infix_append {name name' rest : List Char} (hname : '}' ∉ name)
    (hname' : IsName name') :
    aliasPattern name <:+: aliasPattern name' ++ rest ↔
      name = name' ∨ aliasPattern name <:+: rest := by
  constructor
  · intro h
    rw [aliasPattern_append, List.infix_cons_iff, List.infix_cons_iff,
      ← aliasPattern_append] at h
    obtain h | h | h := h
    · exact .inl (eq_of_begins hname hname'.close_not_mem h)
    · exact absurd h (not_prefix_second hname')
    · right
      rw [aliasPattern_eq]
      apply Text.infix_of_infix_append (open_not_mem_closed hname')
      rw [List.append_assoc]
      exact h
  · rintro (rfl | h)
    · exact (List.prefix_append _ _).isInfix
    · exact h.trans (List.suffix_append _ _).isInfix

/-- A second reference begins behind the first one. -/
theorem aliasPattern_overlap {name name' before rest rest' : List Char} (hname : IsName name)
    (hname' : IsName name') (h : aliasPattern name ++ rest = before ++ (aliasPattern name' ++ rest')) :
    (before = [] ∧ name = name' ∧ rest = rest') ∨
      ∃ between, before = aliasPattern name ++ between ∧
        rest = between ++ (aliasPattern name' ++ rest') := by
  obtain ⟨between, hbefore, hrest⟩ | ⟨inner, hpattern, hinner⟩ := List.append_eq_append_iff.mp h
  · exact .inr ⟨between, hbefore, hrest⟩
  · cases before with
    | nil =>
        have hinj := aliasPattern_append_inj hname.close_not_mem hname'.close_not_mem h
        exact .inl ⟨rfl, hinj⟩
    | cons x before =>
        -- Inside the first reference no other one begins.
        cases inner with
        | nil => exact .inr ⟨[], by simpa using hpattern.symm, by simpa using hinner.symm⟩
        | cons y inner =>
            exfalso
            have hy : '{' = y := by
              rw [aliasPattern_append] at hinner
              exact (List.cons_eq_cons.mp hinner).1
            subst hy
            have htail : '{' :: (name ++ ['}', '}']) = before ++ '{' :: inner := by
              simpa [aliasPattern] using (List.cons_eq_cons.mp hpattern).2
            cases before with
            | nil =>
                obtain rfl : name ++ ['}', '}'] = inner := by simpa using htail
                apply @not_prefix_second name' name rest hname
                exact ⟨rest', by rw [hinner]; simp⟩
            | cons z before =>
                have hmem : name ++ ['}', '}'] = before ++ '{' :: inner :=
                  (List.cons_eq_cons.mp htail).2
                apply open_not_mem_closed hname
                rw [hmem]
                exact List.mem_append_right before List.mem_cons_self

/-- Two references of one text are the same or stand apart. -/
theorem two_references {name name' before before' rest rest' : List Char} (hname : IsName name)
    (hname' : IsName name')
    (h : before ++ (aliasPattern name ++ rest) = before' ++ (aliasPattern name' ++ rest')) :
    (before = before' ∧ name = name' ∧ rest = rest') ∨
      (∃ between, before' = before ++ (aliasPattern name ++ between) ∧
        rest = between ++ (aliasPattern name' ++ rest')) ∨
      ∃ between, before = before' ++ (aliasPattern name' ++ between) ∧
        rest' = between ++ (aliasPattern name ++ rest) := by
  obtain ⟨d, rfl, hd⟩ | ⟨d, rfl, hd⟩ := List.append_eq_append_iff.mp h
  · obtain ⟨rfl, rfl, rfl⟩ | ⟨between, rfl, hrest⟩ := aliasPattern_overlap hname hname' hd
    · exact .inl ⟨by simp, rfl, rfl⟩
    · exact .inr (.inl ⟨between, rfl, hrest⟩)
  · obtain ⟨rfl, rfl, rfl⟩ | ⟨between, rfl, hrest⟩ := aliasPattern_overlap hname' hname hd
    · exact .inl ⟨by simp, rfl, rfl⟩
    · exact .inr (.inr ⟨between, rfl, hrest⟩)

/-! ### Pieces -/

/-- A piece of a text whose braces all belong to references. -/
inductive Piece
  | char (c : Char) (plain : c ≠ '{' ∧ c ≠ '}')
  | ref (name : List Char) (isName : IsName name)

def Piece.spell : Piece → List Char
  | .char c _ => [c]
  | .ref name _ => aliasPattern name

def spell (pieces : List Piece) : List Char := pieces.flatMap Piece.spell

@[simp] theorem spell_nil : spell [] = [] := rfl

@[simp] theorem spell_cons (piece : Piece) (pieces : List Piece) :
    spell (piece :: pieces) = piece.spell ++ spell pieces :=
  List.flatMap_cons

@[simp] theorem spell_append (xs ys : List Piece) : spell (xs ++ ys) = spell xs ++ spell ys :=
  List.flatMap_append

def WellFormed (text : List Char) : Prop := ∃ pieces, spell pieces = text

def Piece.reference : Piece → Option (List Char)
  | .char _ _ => none
  | .ref name _ => some name

/-- The names that a text refers to. -/
def references (pieces : List Piece) : List (List Char) := pieces.filterMap Piece.reference

theorem references_char (c : Char) (plain : c ≠ '{' ∧ c ≠ '}') (pieces : List Piece) :
    references (.char c plain :: pieces) = references pieces := rfl

theorem references_ref (name : List Char) (isName : IsName name) (pieces : List Piece) :
    references (.ref name isName :: pieces) = name :: references pieces := rfl

theorem references_append (xs ys : List Piece) :
    references (xs ++ ys) = references xs ++ references ys :=
  List.filterMap_append

theorem open_not_mem_char {c : Char} (plain : c ≠ '{' ∧ c ≠ '}') :
    '{' ∉ (Piece.char c plain).spell := by
  simpa [Piece.spell] using plain.1.symm

theorem isName_of_mem_references {pieces : List Piece} {name : List Char}
    (h : name ∈ references pieces) : IsName name := by
  obtain ⟨piece, -, hpiece⟩ := List.mem_filterMap.mp h
  cases piece with
  | char c plain => cases hpiece
  | ref name isName =>
      cases hpiece
      exact isName

/-- The patterns in a text are its references. -/
theorem aliasPattern_infix_spell {name : List Char} (hname : '}' ∉ name) (pieces : List Piece) :
    aliasPattern name <:+: spell pieces ↔ name ∈ references pieces := by
  induction pieces with
  | nil => simp [references, aliasPattern_ne_nil]
  | cons piece pieces ih =>
      cases piece with
      | char c plain =>
          rw [spell_cons, references_char, ← ih]
          constructor
          · exact Text.infix_of_infix_append (open_not_mem_char plain)
          · exact fun h => h.trans (List.suffix_append _ _).isInfix
      | ref name' isName =>
          rw [spell_cons, references_ref, List.mem_cons, ← ih]
          exact aliasPattern_infix_append hname isName

/-- Put pieces in for a reference. -/
def Piece.expand (name : List Char) (content : List Piece) : Piece → List Piece
  | .char c plain => [.char c plain]
  | .ref name' isName => if name' = name then content else [.ref name' isName]

/-- Another reference is left as it is. -/
theorem replace_reference {name name' : List Char} (hname : IsName name) (hname' : IsName name')
    (hne : name' ≠ name) (content rest : List Char) :
    Text.replace (aliasPattern name) content (aliasPattern name' ++ rest) =
      aliasPattern name' ++ Text.replace (aliasPattern name) content rest := by
  have hfirst : ¬aliasPattern name <+: aliasPattern name' ++ rest := fun h =>
    hne (eq_of_begins hname.close_not_mem hname'.close_not_mem h).symm
  have hlater : Text.replace (aliasPattern name) content (name' ++ ['}', '}'] ++ rest) =
      name' ++ ['}', '}'] ++ Text.replace (aliasPattern name) content rest :=
    Text.replace_append_of_not_mem (open_not_mem_closed hname') rest
  rw [List.append_assoc, List.append_assoc] at hlater
  rw [aliasPattern_append name' rest] at hfirst ⊢
  rw [aliasPattern_append, Text.replace_cons_of_no_match hfirst,
    Text.replace_cons_of_no_match (not_prefix_second hname')]
  exact congrArg (fun text => '{' :: '{' :: text) hlater

theorem replace_spell {name : List Char} (hname : IsName name) (content pieces : List Piece) :
    Text.replace (aliasPattern name) (spell content) (spell pieces) =
      spell (pieces.flatMap (Piece.expand name content)) := by
  induction pieces with
  | nil => rfl
  | cons piece pieces ih =>
      rw [spell_cons, List.flatMap_cons, spell_append, ← ih]
      cases piece with
      | char c plain =>
          rw [aliasPattern_eq, Text.replace_append_of_not_mem (open_not_mem_char plain),
            Piece.expand, spell_cons, spell_nil, List.append_nil]
      | ref name' isName =>
          by_cases heq : name' = name
          · subst heq
            rw [Piece.spell, Text.replace_append_self (aliasPattern_ne_nil name'), Piece.expand,
              if_pos rfl]
          · rw [Piece.spell, replace_reference hname isName heq, Piece.expand, if_neg heq,
              spell_cons, spell_nil, List.append_nil, Piece.spell]

theorem mem_references_expand {name : List Char} {content pieces : List Piece} {n : List Char} :
    n ∈ references (pieces.flatMap (Piece.expand name content)) ↔
      (n ∈ references pieces ∧ n ≠ name) ∨ (name ∈ references pieces ∧ n ∈ references content) := by
  induction pieces with
  | nil => simp [references]
  | cons piece pieces ih =>
      rw [List.flatMap_cons, references_append, List.mem_append, ih]
      cases piece with
      | char c plain =>
          rw [references_char]
          simp [Piece.expand, references, Piece.reference]
      | ref name' isName =>
          rw [references_ref, Piece.expand]
          by_cases heq : name' = name
          · subst heq
            rw [if_pos rfl]
            grind
          · rw [if_neg heq]
            have hone : references [.ref name' isName] = [name'] := rfl
            rw [hone]
            grind

/-! ### Expansion -/

/-- The full recursive expansion. -/
inductive Expands (m : AliasManager) : List Piece → List Char → Prop
  | nil : Expands m [] []
  | char {c : Char} {plain : c ≠ '{' ∧ c ≠ '}'} {pieces : List Piece} {text : List Char} :
      Expands m pieces text → Expands m (.char c plain :: pieces) (c :: text)
  | ref {name : List Char} {isName : IsName name} {content pieces : List Piece}
      {inner text : List Char} :
      (name, spell content) ∈ m.aliases → Expands m content inner → Expands m pieces text →
        Expands m (.ref name isName :: pieces) (inner ++ text)

theorem Expands.append {m : AliasManager} {xs ys : List Piece} {s t : List Char}
    (hxs : Expands m xs s) (hys : Expands m ys t) : Expands m (xs ++ ys) (s ++ t) := by
  induction hxs with
  | nil => exact hys
  | char _ ih => exact .char ih
  | ref hcontent hinner _ _ ih =>
      rw [List.append_assoc]
      exact .ref hcontent hinner ih

theorem Expands.split {m : AliasManager} {xs ys : List Piece} {text : List Char}
    (h : Expands m (xs ++ ys) text) :
    ∃ s t, text = s ++ t ∧ Expands m xs s ∧ Expands m ys t := by
  induction xs generalizing text with
  | nil => exact ⟨[], text, rfl, .nil, h⟩
  | cons piece xs ih =>
      cases h with
      | char h =>
          obtain ⟨s, t, rfl, hs, ht⟩ := ih h
          exact ⟨_, t, rfl, .char hs, ht⟩
      | ref hcontent hinner h =>
          obtain ⟨s, t, rfl, hs, ht⟩ := ih h
          exact ⟨_, t, (List.append_assoc _ _ _).symm, .ref hcontent hinner hs, ht⟩

end SqlxData.Macros
