import Mathlib.Data.List.Forall2
import Mathlib.Data.List.Infix

/-!
LIKE patterns: wildcards for any run of characters and for one character, and an
escape in front of a character that stands for itself. A text used as a pattern
matches itself and nothing else only if no character of it is special.
-/

namespace Like

/-! ### Matching -/

inductive Item
  | any
  | one
  | literal (c : Char)
  deriving DecidableEq

section Matching

variable (same : Char → Char → Bool)

/-- `same` are the characters that are not told apart, that of the pattern
first. -/
def matchItems : List Item → List Char → Bool
  | [], cs => cs.isEmpty
  | .any :: items, cs => cs.tails.any fun rest => matchItems items rest
  | .one :: items, cs =>
      match cs with
      | [] => false
      | _ :: rest => matchItems items rest
  | .literal a :: items, cs =>
      match cs with
      | [] => false
      | c :: rest => same a c && matchItems items rest

variable {same}

theorem matchItems_any {items : List Item} {cs : List Char} :
    matchItems same (.any :: items) cs = true ↔
      ∃ rest, rest <:+ cs ∧ matchItems same items rest = true := by
  simp [matchItems, List.mem_tails]

theorem matchItems_only_any (cs : List Char) : matchItems same [.any] cs = true :=
  matchItems_any.mpr ⟨[], List.nil_suffix, rfl⟩

/-- Literals match a start of the text, character by character. -/
theorem matchItems_literals_append {as : List Char} {items : List Item} {cs : List Char} :
    matchItems same (as.map .literal ++ items) cs = true ↔
      ∃ front rest, cs = front ++ rest ∧ List.Forall₂ (fun a c => same a c = true) as front ∧
        matchItems same items rest = true := by
  induction as generalizing cs with
  | nil => simp [List.forall₂_nil_left_iff]
  | cons a as ih =>
      cases cs with
      | nil => simp [matchItems, List.forall₂_cons_left_iff]
      | cons c cs =>
          simp only [List.map_cons, List.cons_append, matchItems, Bool.and_eq_true, ih]
          constructor
          · rintro ⟨hac, front, rest, rfl, hfront, hrest⟩
            exact ⟨c :: front, rest, rfl, .cons hac hfront, hrest⟩
          · rintro ⟨front, rest, heq, hfront, hrest⟩
            obtain ⟨c', front', hac, hfront', rfl⟩ := List.forall₂_cons_left_iff.mp hfront
            obtain ⟨rfl, rfl⟩ := List.cons.inj heq
            exact ⟨hac, front', rest, rfl, hfront', hrest⟩

theorem matchItems_literals {as cs : List Char} :
    matchItems same (as.map .literal) cs = true ↔
      List.Forall₂ (fun a c => same a c = true) as cs := by
  rw [← List.append_nil (as.map Item.literal), matchItems_literals_append]
  simp [matchItems]

/-- Literals between wildcards match a part of the text. -/
theorem matchItems_around_literals {as cs : List Char} :
    matchItems same (.any :: (as.map .literal ++ [.any])) cs = true ↔
      ∃ part, part <:+: cs ∧ List.Forall₂ (fun a c => same a c = true) as part := by
  rw [matchItems_any]
  constructor
  · rintro ⟨rest, ⟨front, rfl⟩, hmatch⟩
    obtain ⟨part, back, rfl, hpart, -⟩ := matchItems_literals_append.mp hmatch
    exact ⟨part, ⟨front, back, by simp⟩, hpart⟩
  · rintro ⟨part, ⟨front, back, rfl⟩, hpart⟩
    refine ⟨part ++ back, ⟨front, by simp⟩, ?_⟩
    exact matchItems_literals_append.mpr ⟨part, back, rfl, hpart, matchItems_only_any back⟩

end Matching

/-! ### Patterns -/

/-- What a character stands for that is not escaped. -/
def itemOf (c : Char) : Item :=
  if c = '%' then .any else if c = '_' then .one else .literal c

/-- How a pattern is written: the escape character, and whether it stands for
itself at the end, where a pattern matches nothing otherwise. -/
structure Escaping where
  escape : Option Char
  literalAtEnd : Bool

def parse (E : Escaping) : List Char → Option (List Item)
  | [] => some []
  | [c] =>
      if E.escape = some c then if E.literalAtEnd then some [.literal c] else none
      else some [itemOf c]
  | c :: d :: cs =>
      if E.escape = some c then (parse E cs).map (.literal d :: ·)
      else (parse E (d :: cs)).map (itemOf c :: ·)

def like (same : Char → Char → Bool) (E : Escaping) (cs pattern : List Char) : Bool :=
  (parse E pattern).any fun items => matchItems same items cs

/-! ### A text as a pattern -/

def backslash : Char := '\\'

def isSpecial (c : Char) : Bool := c = '%' || c = '_' || c = backslash

/-- No character of the text is special. -/
def Plain (cs : List Char) : Prop := ∀ c ∈ cs, isSpecial c = false

/-- Plain, but for an escape at the end. -/
def PlainButEnd (cs : List Char) : Prop := ∃ front, cs = front ++ [backslash] ∧ Plain front

/-- The least text for a character. -/
def filling (c : Char) : List Char :=
  if c = '%' then [] else if c = '_' then ['%'] else [c]

/-- A shortest text that matches; `last` is what an escape at the end is put
in front of. -/
def shortest (last : Char) : List Char → List Char
  | [] => []
  | [c] => if c = backslash then [last] else filling c
  | c :: d :: cs =>
      if c = backslash then d :: shortest last cs else filling c ++ shortest last (d :: cs)

theorem plain_cons {c : Char} {cs : List Char} :
    Plain (c :: cs) ↔ isSpecial c = false ∧ Plain cs := List.forall_mem_cons

theorem filling_eq_iff {c : Char} (h : c ≠ backslash) :
    filling c = [c] ↔ isSpecial c = false := by
  unfold filling isSpecial
  by_cases hpercent : c = '%'
  · simp [hpercent]
  · by_cases hunderscore : c = '_'
    · simp [hunderscore]
    · simp [hpercent, hunderscore, h]

theorem length_filling_le (c : Char) : (filling c).length ≤ 1 := by
  unfold filling
  split_ifs <;> simp

theorem length_shortest_le (last : Char) (cs : List Char) :
    (shortest last cs).length ≤ cs.length := by
  fun_induction shortest last cs with
  | case1 => simp
  | case2 => simp
  | case3 c h => simpa using length_filling_le c
  | case4 d cs ih => simp only [List.length_cons]; omega
  | case5 c d cs h ih =>
      have hfilling := length_filling_le c
      simp only [List.length_append, List.length_cons] at ih ⊢
      omega

theorem mem_filling {c d : Char} (h : d ∈ filling c) : d = c ∨ d = '%' := by
  unfold filling at h
  split_ifs at h <;> simp_all

theorem mem_shortest {last : Char} {cs : List Char} {d : Char} (h : d ∈ shortest last cs) :
    d ∈ cs ∨ d = '%' ∨ d = last ∧ backslash ∈ cs := by
  fun_induction shortest last cs with
  | case1 => cases h
  | case2 => simp_all
  | case3 c hc => rcases mem_filling h with rfl | rfl <;> simp
  | case4 d' cs ih =>
      rcases List.mem_cons.mp h with rfl | h
      · simp
      · rcases ih h with h | h | ⟨rfl, h⟩ <;> simp_all
  | case5 c d' cs hc ih =>
      rcases List.mem_append.mp h with h | h
      · rcases mem_filling h with rfl | rfl <;> simp
      · rcases ih h with h | h | ⟨rfl, h⟩ <;> simp_all

theorem plainButEnd_singleton (c : Char) : PlainButEnd [c] ↔ c = backslash := by
  constructor
  · rintro ⟨front, heq, -⟩
    cases front with
    | nil => exact (List.cons.inj heq).1
    | cons a front => simp at heq
  · rintro rfl
    exact ⟨[], rfl, nofun⟩

theorem plainButEnd_cons {c d : Char} {cs : List Char} :
    PlainButEnd (c :: d :: cs) ↔ isSpecial c = false ∧ PlainButEnd (d :: cs) := by
  constructor
  · rintro ⟨front, heq, hplain⟩
    cases front with
    | nil => simp at heq
    | cons a front =>
        obtain ⟨hca, hrest⟩ := List.cons.inj heq
        obtain ⟨ha, hfront⟩ := plain_cons.mp hplain
        exact ⟨hca ▸ ha, front, hrest, hfront⟩
  · rintro ⟨hc, front, heq, hplain⟩
    exact ⟨c :: front, by rw [heq]; rfl, plain_cons.mpr ⟨hc, hplain⟩⟩

theorem isSpecial_backslash : isSpecial backslash = true := by decide

/-- A text that has a wildcard or an escape is not the shortest that matches
it. -/
theorem shortest_eq_iff (last : Char) (cs : List Char) :
    shortest last cs = cs ↔ Plain cs ∨ last = backslash ∧ PlainButEnd cs := by
  fun_induction shortest last cs with
  | case1 => exact iff_of_true rfl (.inl nofun)
  | case2 =>
      simp [plain_cons, isSpecial_backslash, plainButEnd_singleton]
  | case3 c hc =>
      rw [filling_eq_iff hc, plainButEnd_singleton]
      simp [hc, Plain]
  | case4 d cs ih =>
      refine iff_of_false (fun h => ?_) ?_
      · have hlength := congrArg List.length h
        have hle := length_shortest_le last cs
        simp only [List.length_cons] at hlength
        omega
      · simp [plain_cons, plainButEnd_cons, isSpecial_backslash]
  | case5 c d cs hc ih =>
      rw [plain_cons, plainButEnd_cons]
      by_cases hspecial : isSpecial c = false
      · rw [(filling_eq_iff hc).mpr hspecial]
        simp [hspecial, ih]
      · refine iff_of_false (fun h => ?_) (by simp [hspecial])
        -- nothing stands for `%`, and something else for `_`
        have hlength := congrArg List.length h
        have hle := length_shortest_le last (d :: cs)
        simp only [isSpecial, hc, decide_false, Bool.or_false, Bool.or_eq_false_iff,
          decide_eq_false_iff_not, not_and_or, not_not] at hspecial
        rcases hspecial with rfl | rfl
        · simp only [filling, if_true, List.nil_append, List.length_cons] at hlength hle
          omega
        · simp [filling] at h

/-! ### What a text matches as a pattern -/

section Texts

variable {same : Char → Char → Bool} {E : Escaping}

theorem matchItems_itemOf (hself : ∀ a, same a a = true) {items : List Item} {rest : List Char}
    (c : Char) (h : matchItems same items rest = true) :
    matchItems same (itemOf c :: items) (filling c ++ rest) = true := by
  unfold itemOf filling
  split_ifs
  · exact matchItems_any.mpr ⟨rest, List.suffix_rfl, h⟩
  · exact h
  · simpa [matchItems, hself] using h

theorem parse_cons {c : Char} (h : E.escape ≠ some c) (cs : List Char) :
    parse E (c :: cs) = (parse E cs).map (itemOf c :: ·) := by
  cases cs with
  | nil => simp [parse, h]
  | cons d cs => rw [parse, if_neg h]

theorem parse_escape {c : Char} (h : E.escape = some c) (d : Char) (cs : List Char) :
    parse E (c :: d :: cs) = (parse E cs).map (.literal d :: ·) := by
  rw [parse, if_pos h]

theorem escape_ne (hescape : E.escape = some backslash) {c : Char} (hc : ¬c = backslash) :
    E.escape ≠ some c := by
  rw [hescape]
  exact fun heq => hc (Option.some.inj heq).symm

theorem parse_plain_append (hescape : E.escape = some backslash) {cs : List Char} (h : Plain cs)
    (rest : List Char) :
    parse E (cs ++ rest) = (parse E rest).map (cs.map .literal ++ ·) := by
  induction cs with
  | nil => simp
  | cons c cs ih =>
      obtain ⟨hc, hcs⟩ := plain_cons.mp h
      simp only [isSpecial, Bool.or_eq_false_iff, decide_eq_false_iff_not] at hc
      obtain ⟨⟨hpercent, hunderscore⟩, hbackslash⟩ := hc
      have hitem : itemOf c = .literal c := by simp [itemOf, hpercent, hunderscore]
      rw [List.cons_append, parse_cons (escape_ne hescape hbackslash), ih hcs, hitem,
        Option.map_map]
      rfl

/-- A pattern that ends with `%` matches its shortest text. -/
theorem parse_closed (hescape : E.escape = some backslash) (hself : ∀ a, same a a = true)
    (cs : List Char) :
    ∃ items, parse E (cs ++ ['%']) = some items ∧
      matchItems same items (shortest '%' cs) = true := by
  have hend : parse E ['%'] = some [.any] := by
    rw [parse_cons (escape_ne hescape (by decide))]
    rfl
  fun_induction shortest '%' cs with
  | case1 => exact ⟨_, hend, matchItems_only_any _⟩
  | case2 =>
      refine ⟨[.literal '%'], ?_, by simp [matchItems, hself]⟩
      exact parse_escape hescape '%' []
  | case3 c hc =>
      refine ⟨[itemOf c, .any], ?_, ?_⟩
      · rw [List.singleton_append, parse_cons (escape_ne hescape hc), hend]
        rfl
      · have hmatch := matchItems_itemOf hself c (@matchItems_only_any same [])
        rwa [List.append_nil] at hmatch
  | case4 d cs ih =>
      obtain ⟨items, hparse, hmatch⟩ := ih
      refine ⟨.literal d :: items, ?_, by simpa [matchItems, hself] using hmatch⟩
      rw [List.cons_append, List.cons_append, parse_escape hescape, hparse]
      rfl
  | case5 c d cs hc ih =>
      obtain ⟨items, hparse, hmatch⟩ := ih
      refine ⟨itemOf c :: items, ?_, matchItems_itemOf hself c hmatch⟩
      rw [List.cons_append, parse_cons (escape_ne hescape hc), hparse]
      rfl

/-- A pattern matches its shortest text, unless it matches nothing. -/
theorem parse_open (hescape : E.escape = some backslash) (hself : ∀ a, same a a = true)
    (cs : List Char) :
    parse E cs = none ∨ ∃ items, parse E cs = some items ∧
      matchItems same items (shortest backslash cs) = true := by
  fun_induction shortest backslash cs with
  | case1 => exact .inr ⟨[], rfl, rfl⟩
  | case2 =>
      rw [parse, if_pos hescape]
      cases E.literalAtEnd with
      | false => exact .inl rfl
      | true => exact .inr ⟨_, rfl, by simp [matchItems, hself]⟩
  | case3 c hc =>
      refine .inr ⟨[itemOf c], by rw [parse_cons (escape_ne hescape hc)]; rfl, ?_⟩
      have hmatch := @matchItems_itemOf same hself [] [] c rfl
      rwa [List.append_nil] at hmatch
  | case4 d cs ih =>
      rw [parse_escape hescape]
      rcases ih with hnone | ⟨items, hparse, hmatch⟩
      · exact .inl (by rw [hnone]; rfl)
      · refine .inr ⟨.literal d :: items, by rw [hparse]; rfl, ?_⟩
        simpa [matchItems, hself] using hmatch
  | case5 c d cs hc ih =>
      rw [parse_cons (escape_ne hescape hc)]
      rcases ih with hnone | ⟨items, hparse, hmatch⟩
      · exact .inl (by rw [hnone]; rfl)
      · exact .inr ⟨_, by rw [hparse]; rfl, matchItems_itemOf hself c hmatch⟩

/-! ### Texts that are read literally -/

/-- No other character of texts made of `P` passes for one of these. -/
def Told (same : Char → Char → Bool) (P : Char → Prop) (cs : List Char) : Prop :=
  ∀ a ∈ cs, ∀ b, P b → same a b = true → b = a

theorem forall₂_same_self (hself : ∀ a, same a a = true) (cs : List Char) :
    List.Forall₂ (fun a c => same a c = true) cs cs :=
  List.forall₂_same.mpr fun a _ => hself a

theorem eq_of_forall₂_same {P : Char → Prop} {as cs : List Char} (htold : Told same P as)
    (hcs : ∀ c ∈ cs, P c) (h : List.Forall₂ (fun a c => same a c = true) as cs) : cs = as := by
  induction h with
  | nil => rfl
  | cons hac _ ih =>
      obtain ⟨hc, hcs⟩ := List.forall_mem_cons.mp hcs
      rw [htold _ List.mem_cons_self _ hc hac,
        ih (fun a ha => htold a (List.mem_cons_of_mem _ ha)) hcs]

/-- Replace one character by one that is not told apart. -/
theorem exists_forall₂_same (hself : ∀ a, same a a = true) {cs : List Char} {a b : Char}
    (ha : a ∈ cs) (hab : same a b = true) (hne : b ≠ a) :
    ∃ ds, List.Forall₂ (fun a c => same a c = true) cs ds ∧ ds ≠ cs ∧
      ∀ d ∈ ds, d ∈ cs ∨ d = b := by
  obtain ⟨front, back, rfl⟩ := List.append_of_mem ha
  refine ⟨front ++ b :: back, ?_, by simpa using hne, ?_⟩
  · exact List.rel_append (forall₂_same_self hself front) (.cons hab (forall₂_same_self hself back))
  · intro d hd
    simp only [List.mem_append, List.mem_cons] at hd ⊢
    tauto

section Made

variable {P : Char → Prop} (hescape : E.escape = some backslash)
  (hself : ∀ a, same a a = true)

include hescape

theorem parse_literal {cs : List Char}
    (h : Plain cs ∨ E.literalAtEnd = true ∧ PlainButEnd cs) :
    parse E cs = some (cs.map .literal) := by
  rcases h with hplain | ⟨hend, front, rfl, hplain⟩
  · have hparse := parse_plain_append hescape hplain []
    rw [List.append_nil] at hparse
    rw [hparse]
    simp [parse]
  · rw [parse_plain_append hescape hplain, parse, if_pos hescape, if_pos hend]
    simp

theorem like_iff_of_literal {cs ds : List Char}
    (h : Plain cs ∨ E.literalAtEnd = true ∧ PlainButEnd cs) :
    like same E ds cs = true ↔ List.Forall₂ (fun a c => same a c = true) cs ds := by
  rw [like, parse_literal hescape h]
  exact matchItems_literals

theorem like_closed_iff_of_plain {cs ds : List Char} (h : Plain cs) :
    like same E ds ('%' :: (cs ++ ['%'])) = true ↔
      ∃ part, part <:+: ds ∧ List.Forall₂ (fun a c => same a c = true) cs part := by
  have hpercent : E.escape ≠ some '%' := by
    rw [hescape]
    decide
  have hend : parse E ['%'] = some [.any] := by
    rw [parse_cons hpercent]
    rfl
  have hparse : parse E ('%' :: (cs ++ ['%'])) = some (.any :: (cs.map .literal ++ [.any])) := by
    rw [parse_cons hpercent, parse_plain_append hescape h, hend]
    rfl
  rw [like, hparse]
  exact matchItems_around_literals

include hself

/-- A pattern matches itself and nothing else exactly when no character of it
is special, or only the last one is and stands for itself there, and when each
is told apart from all others. -/
theorem like_iff_eq_iff (hpercent : P '%') {cs : List Char} (hcs : ∀ c ∈ cs, P c) :
    (∀ ds, (∀ d ∈ ds, P d) → (like same E ds cs = true ↔ ds = cs)) ↔
      (Plain cs ∨ E.literalAtEnd = true ∧ PlainButEnd cs) ∧ Told same P cs := by
  constructor
  · intro h
    have hliteral : Plain cs ∨ E.literalAtEnd = true ∧ PlainButEnd cs := by
      have hmatch := (h cs hcs).mpr rfl
      rcases parse_open hescape hself cs with hnone | ⟨items, hparse, hshortest⟩
      · rw [like, hnone] at hmatch
        cases hmatch
      · have hmade : ∀ d ∈ shortest backslash cs, P d := by
          intro d hd
          rcases mem_shortest hd with hin | rfl | ⟨rfl, hin⟩
          · exact hcs d hin
          · exact hpercent
          · exact hcs _ hin
        have heq : shortest backslash cs = cs :=
          (h _ hmade).mp (by rw [like, hparse]; exact hshortest)
        refine ((shortest_eq_iff backslash cs).mp heq).imp_right fun ⟨_, hend⟩ => ⟨?_, hend⟩
        obtain ⟨front, rfl, hplain⟩ := hend
        rw [parse_plain_append hescape hplain, parse, if_pos hescape] at hparse
        cases hlast : E.literalAtEnd with
        | true => rfl
        | false => simp [hlast] at hparse
    refine ⟨hliteral, fun a ha b hb hab => ?_⟩
    by_contra hne
    obtain ⟨ds, hforall, hds, hmem⟩ := exists_forall₂_same hself ha hab hne
    have hmade : ∀ d ∈ ds, P d := fun d hd => (hmem d hd).elim (hcs d) fun heq => heq ▸ hb
    exact hds ((h ds hmade).mp ((like_iff_of_literal hescape hliteral).mpr hforall))
  · rintro ⟨hliteral, htold⟩ ds hds
    rw [like_iff_of_literal hescape hliteral]
    constructor
    · exact eq_of_forall₂_same htold hds
    · rintro rfl
      exact forall₂_same_self hself ds

/-- A pattern between two `%` matches the texts it is a part of exactly when no
character of it is special and each is told apart from all others. -/
theorem like_closed_iff_infix_iff (hpercent : P '%') {cs : List Char} (hcs : ∀ c ∈ cs, P c) :
    (∀ ds, (∀ d ∈ ds, P d) →
        (like same E ds ('%' :: (cs ++ ['%'])) = true ↔ cs <:+: ds)) ↔
      Plain cs ∧ Told same P cs := by
  constructor
  · intro h
    have hplain : Plain cs := by
      obtain ⟨items, hparse, hshortest⟩ := parse_closed hescape hself cs
      have hmade : ∀ d ∈ shortest '%' cs, P d := by
        intro d hd
        rcases mem_shortest hd with hd | rfl | ⟨rfl, -⟩
        · exact hcs d hd
        · exact hpercent
        · exact hpercent
      have hmatch : like same E (shortest '%' cs) ('%' :: (cs ++ ['%'])) = true := by
        rw [like, parse_cons (by rw [hescape]; decide), hparse]
        exact matchItems_any.mpr ⟨_, List.suffix_rfl, hshortest⟩
      have heq : cs = shortest '%' cs :=
        ((h _ hmade).mp hmatch).eq_of_length_le (length_shortest_le '%' cs)
      rcases (shortest_eq_iff '%' cs).mp heq.symm with hplain | ⟨hlast, -⟩
      · exact hplain
      · exact absurd hlast (by decide)
    refine ⟨hplain, fun a ha b hb hab => ?_⟩
    by_contra hne
    obtain ⟨ds, hforall, hds, hmem⟩ := exists_forall₂_same hself ha hab hne
    have hmade : ∀ d ∈ ds, P d := fun d hd => (hmem d hd).elim (hcs d) fun heq => heq ▸ hb
    have hpart := (h ds hmade).mp
      ((like_closed_iff_of_plain hescape hplain).mpr ⟨ds, List.infix_rfl, hforall⟩)
    exact hds (hpart.eq_of_length_le hforall.length_eq.ge).symm
  · rintro ⟨hplain, htold⟩ ds hds
    rw [like_closed_iff_of_plain hescape hplain]
    constructor
    · rintro ⟨part, hpart, hforall⟩
      rwa [← eq_of_forall₂_same htold (fun c hc => hds c (hpart.subset hc)) hforall]
    · exact fun hpart => ⟨cs, hpart, forall₂_same_self hself cs⟩

end Made

end Texts

end Like
