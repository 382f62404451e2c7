import SqlxData.Macros.CastCleaning
import SqlxData.Macros.TypeAnalyzer

/-!
The two readings of a column alias with cast syntax: the name `extractColumnName`
takes for the field of the row struct, and the name the cleaner leaves in the
statement that is run.
-/

namespace SqlxData.Macros

variable {quote : Char} {cs rest name : List Char}

/-! ### The shape of a cast -/

theorem eq_of_skipBlanks (h : skipBlanks cs = some rest) :
    ∃ blanks, (∀ b ∈ blanks, isWhitespace b) ∧ cs = blanks ++ rest := by
  rw [skipBlanks] at h
  split at h
  · obtain rfl := Option.some.inj h
    exact ⟨_, fun b hb => List.mem_takeWhile_imp hb, List.takeWhile_append_dropWhile.symm⟩
  · cases h

theorem eq_of_skipMark (h : skipMark cs = some rest) :
    ∃ mark, (mark = '!' ∨ mark = '?') ∧ cs = mark :: rest := by
  cases cs with
  | nil => cases h
  | cons c cs =>
      rw [skipMark] at h
      split at h
      · obtain rfl := Option.some.inj h
        exact ⟨c, ‹_›, rfl⟩
      · cases h

theorem eq_of_skipType (h : skipType cs = some rest) :
    ∃ blanks tail, (∀ b ∈ blanks, isWhitespace b) ∧ cs = blanks ++ ':' :: tail := by
  rw [skipType] at h
  split at h
  · rename_i tail hblanks
    obtain ⟨blanks, hblank, hcs⟩ := eq_of_skipBlanks hblanks
    exact ⟨blanks, tail, hblank, hcs⟩
  · cases h

/-- A colon stands in front of the closing quote. -/
theorem eq_of_append_quote (hquote : quote ≠ ':') {blanks tail : List Char}
    (h : cs ++ [quote] = blanks ++ ':' :: tail) : ∃ tail', cs = blanks ++ ':' :: tail' := by
  have hne : tail ≠ [] := by
    rintro rfl
    exact hquote (List.append_inj_right' h rfl |> List.cons.inj |>.1)
  refine ⟨tail.dropLast, ?_⟩
  have hlast := congrArg List.dropLast h
  rwa [List.dropLast_concat, List.dropLast_append_of_ne_nil (List.cons_ne_nil _ _),
    List.dropLast_cons_of_ne_nil hne] at hlast

/-- What follows the name in an alias that is a cast. -/
inductive CastSuffix : List Char → Prop
  | mark {m : Char} : m = '!' ∨ m = '?' → CastSuffix [m]
  | type {blanks tail : List Char} : (∀ b ∈ blanks, isWhitespace b) →
      CastSuffix (blanks ++ ':' :: tail)
  | markType {m : Char} {blanks tail : List Char} : m = '!' ∨ m = '?' →
      (∀ b ∈ blanks, isWhitespace b) → CastSuffix (m :: (blanks ++ ':' :: tail))

theorem CastSuffix.ne_nil (h : CastSuffix cs) : cs ≠ [] := by
  cases h <;> simp

theorem ne_of_isCastQuote (hquote : isCastQuote quote) :
    quote ≠ ':' ∧ quote ≠ '!' ∧ quote ≠ '?' := by
  simp only [isCastQuote, Bool.or_eq_true, decide_eq_true_eq] at hquote
  rcases hquote with (rfl | rfl) | rfl <;> decide

theorem castSuffix_of_skipSuffix (hquote : isCastQuote quote)
    (h : skipSuffix (cs ++ [quote]) = some [quote]) : CastSuffix cs := by
  obtain ⟨hcolon, hbang, hquestion⟩ := ne_of_isCastQuote hquote
  rw [skipSuffix] at h
  cases hmark : skipMark (cs ++ [quote]) with
  | none =>
      rw [hmark] at h
      obtain ⟨blanks, tail, hblank, hcs⟩ := eq_of_skipType h
      obtain ⟨tail', rfl⟩ := eq_of_append_quote hcolon hcs
      exact .type hblank
  | some behind =>
      rw [hmark] at h
      obtain ⟨m, hm, hcs⟩ := eq_of_skipMark hmark
      cases cs with
      | nil =>
          obtain ⟨rfl, -⟩ := List.cons.inj hcs
          rcases hm with rfl | rfl <;> contradiction
      | cons c cs =>
          obtain ⟨rfl, rfl⟩ := List.cons.inj hcs
          cases htype : skipType (cs ++ [quote]) with
          | some after =>
              obtain ⟨blanks, tail, hblank, hcs⟩ := eq_of_skipType htype
              obtain ⟨tail', rfl⟩ := eq_of_append_quote hcolon hcs
              exact .markType hm hblank
          | none =>
              have h : (skipType (cs ++ [quote])).getD (cs ++ [quote]) = [quote] := Option.some.inj h
              rw [htype, Option.getD_none] at h
              obtain rfl : cs = [] := by simpa using h
              exact .mark hm

/-- The characters of a name. -/
structure IsColumnName (name : List Char) : Prop where
  ne_nil : name ≠ []
  idents : ∀ c ∈ name, isIdentChar c

theorem cut_concat {p : Char → Bool} {c : Char} (hc : p c = false) (cs : List Char) :
    (cs ++ [c]).takeWhile p = cs.takeWhile p ∧ (cs ++ [c]).dropWhile p = cs.dropWhile p ++ [c] := by
  induction cs with
  | nil => simp [hc]
  | cons d cs ih =>
      cases hd : p d with
      | true => simpa [hd] using ih
      | false => simp [hd]

/-- An alias that is a cast from quote to quote is a name and a suffix. -/
theorem eq_of_castAt (h : castAt (quote :: (cs ++ [quote])) = some (name, [])) :
    ∃ suffix, cs = name ++ suffix ∧ IsColumnName name ∧ CastSuffix suffix := by
  cases cs with
  | nil =>
      rw [List.nil_append, castAt] at h
      split at h
      · rename_i hstart
        obtain ⟨hquote, hident, -⟩ := hstart
        simp only [isCastQuote, Bool.or_eq_true, decide_eq_true_eq] at hquote
        rcases hquote with (rfl | rfl) | rfl <;> exact absurd hident (by decide)
      · cases h
  | cons c cs =>
      rw [List.cons_append, castAt] at h
      split at h
      · rename_i hstart
        obtain ⟨hquote, hident, -⟩ := hstart
        have hplain : isIdentChar quote = false := by
          simp only [isCastQuote, Bool.or_eq_true, decide_eq_true_eq] at hquote
          rcases hquote with (rfl | rfl) | rfl <;> decide
        obtain ⟨htake, hdrop⟩ := cut_concat hplain cs
        rw [htake, hdrop] at h
        split at h
        · rename_i close behind hsuffix
          split at h
          · rename_i hclose
            obtain ⟨rfl, rfl⟩ := Prod.mk.inj (Option.some.inj h)
            rw [hclose] at hsuffix
            refine ⟨cs.dropWhile isIdentChar, ?_, ⟨List.cons_ne_nil _ _, ?_⟩,
              castSuffix_of_skipSuffix hquote hsuffix⟩
            · rw [List.cons_append, List.takeWhile_append_dropWhile]
            · intro d hd
              rcases List.mem_cons.mp hd with rfl | hd
              · exact isIdentChar_of_isIdentStart hident
              · exact List.mem_takeWhile_imp hd
          · cases h
        · cases h
      · cases h

/-! ### The name the macro takes -/

theorem IsColumnName.not_mem (h : IsColumnName name) {c : Char} (hc : isIdentChar c = false) :
    c ∉ name := by
  intro hmem
  rw [h.idents c hmem] at hc
  cases hc

theorem isWhitespace_of_isIdentChar {c : Char} (h : isIdentChar c) : isWhitespace c = false := by
  have hcode : 65 ≤ c.toNat ∧ c.toNat ≤ 90 ∨ 97 ≤ c.toNat ∧ c.toNat ≤ 122 ∨
      48 ≤ c.toNat ∧ c.toNat ≤ 57 ∨ c.toNat = 95 := by
    unfold isIdentChar Char.isAlphanum Char.isAlpha Char.isUpper Char.isLower Char.isDigit at h
    simp only [Bool.or_eq_true, Bool.and_eq_true, decide_eq_true_eq, ge_iff_le,
      UInt32.le_iff_toNat_le, ← Char.toNat_inj, or_assoc] at h
    exact h
  unfold isWhitespace
  simp only [Bool.or_eq_false_iff, Bool.and_eq_false_iff, decide_eq_false_iff_not]
  omega

theorem IsColumnName.tight (h : IsColumnName name) : Text.Tight isWhitespace name where
  ne_nil := h.ne_nil
  head c hc := by
    simp [isWhitespace_of_isIdentChar (h.idents c (List.mem_of_mem_head? hc))]
  last c hc := by
    simp [isWhitespace_of_isIdentChar (h.idents c (List.mem_of_mem_getLast? hc))]

/-- A name does not end with a mark. -/
theorem IsColumnName.rdropWhile (h : IsColumnName name) : name.rdropWhile (· = '!') = name := by
  rw [List.rdropWhile_eq_self_iff]
  intro hne hlast
  rw [decide_eq_true_eq] at hlast
  exact h.not_mem (c := '!') (by decide) (hlast ▸ List.getLast_mem hne)

/-- The part of the alias in front of the type; all of it when there is none. -/
theorem extractColumnName_mark (h : IsColumnName name) {m : Char} (hm : m = '!' ∨ m = '?') :
    (name ++ [m]).rdropWhile (· = '!') = name ↔ m ≠ '?' := by
  rcases hm with rfl | rfl
  · rw [List.rdropWhile_concat_pos _ _ _ (by decide), h.rdropWhile]
    simp
  · rw [List.rdropWhile_concat_neg _ _ _ (by decide)]
    simp

theorem extractColumnName_colon {base blanks tail : List Char}
    (htight : Text.Tight isWhitespace base) (hbase : ':' ∉ base)
    (hblanks : ∀ b ∈ blanks, isWhitespace b) :
    extractColumnName (base ++ (blanks ++ ':' :: tail)) = base.rdropWhile (· = '!') := by
  have hnone : ':' ∉ base ++ blanks := by
    rw [List.mem_append, not_or]
    refine ⟨hbase, fun hmem => ?_⟩
    exact absurd (hblanks ':' hmem) (by decide)
  rw [← List.append_assoc, extractColumnName, Text.splitOnce_append hnone]
  simp only [htight.trim_append hblanks]

theorem extractColumnName_of_no_colon (h : ':' ∉ cs) :
    extractColumnName cs = cs.rdropWhile (· = '!') := by
  have hnone : Text.splitOnce ':' cs = none := by
    cases hsplit : Text.splitOnce ':' cs with
    | none => rfl
    | some p =>
        have := Text.eq_of_splitOnce (a := p.1) (b := p.2) hsplit
        exact absurd (this ▸ by simp) h
  rw [extractColumnName, hnone]

theorem extractColumnName_append {suffix : List Char} (hname : IsColumnName name)
    (hsuffix : CastSuffix suffix) :
    extractColumnName (name ++ suffix) = name ↔ suffix.head? ≠ some '?' := by
  have hcolon : ':' ∉ name := hname.not_mem (by decide)
  cases hsuffix with
  | @mark m hm =>
      have hnone : ':' ∉ name ++ [m] := by
        rcases hm with rfl | rfl <;> simp [hcolon]
      rw [extractColumnName_of_no_colon hnone, extractColumnName_mark hname hm]
      simp
  | @type blanks tail hblanks =>
      rw [extractColumnName_colon hname.tight hcolon hblanks, hname.rdropWhile]
      refine iff_of_true rfl ?_
      cases blanks with
      | nil => simp
      | cons b blanks =>
          have hb : b ≠ '?' := by
            rintro rfl
            exact absurd (hblanks '?' List.mem_cons_self) (by decide)
          simpa using hb
  | @markType m blanks tail hm hblanks =>
      have hnone : ':' ∉ name ++ [m] := by
        rcases hm with rfl | rfl <;> simp [hcolon]
      have htight : Text.Tight isWhitespace (name ++ [m]) := by
        have hm' : Text.Tight isWhitespace [m] := by
          rcases hm with rfl | rfl <;> exact .of_ends rfl rfl (by decide) (by decide)
        simpa using hname.tight.append [] hm'
      have happend : name ++ m :: (blanks ++ ':' :: tail) =
          (name ++ [m]) ++ (blanks ++ ':' :: tail) := by simp
      rw [happend, extractColumnName_colon htight hnone hblanks, extractColumnName_mark hname hm]
      simp

/-- The macro takes the name the cleaner leaves exactly when no `?` stands
behind the name. -/
theorem column_names_agree_iff (h : castAt (quote :: (cs ++ [quote])) = some (name, [])) :
    cleanSqlxCastSyntaxForRuntime (quote :: (cs ++ [quote])) = name ∧
      (extractColumnName cs = name ↔ ¬name ++ ['?'] <+: cs) := by
  constructor
  · have hclean := clean_cast h []
    rw [List.append_nil] at hclean
    exact hclean.trans (List.append_nil name)
  · obtain ⟨suffix, rfl, hname, hsuffix⟩ := eq_of_castAt h
    rw [extractColumnName_append hname hsuffix, List.prefix_append_right_inj]
    cases suffix with
    | nil => exact absurd rfl hsuffix.ne_nil
    | cons c suffix => simp [eq_comm]

theorem column_names_agree_total :
    extractColumnName "total! : i64".toList = "total".toList ∧
      cleanSqlxCastSyntaxForRuntime "\"total! : i64\"".toList = "total".toList := by
  have hcast : castAt ('"' :: ("total! : i64".toList ++ ['"'])) = some ("total".toList, []) := by
    decide
  obtain ⟨hclean, hname⟩ := column_names_agree_iff hcast
  exact ⟨hname.mpr (by decide), hclean⟩

/-- `"name?"` is left as `name`; the macro takes `name?`. -/
theorem column_names_differ :
    castAt "\"name?\"".toList = some ("name".toList, []) ∧
      extractColumnName "name?".toList = "name?".toList ∧
      extractColumnName "name?".toList ≠ cleanSqlxCastSyntaxForRuntime "\"name?\"".toList := by
  decide

end SqlxData.Macros
