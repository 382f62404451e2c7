import SqlxData.Dynamic.LexicalSafety
import SqlxData.Macros.MultiInsert
import SqlxData.Macros.ScopeSystem

/-!
`@name` in the SQL of a method becomes the number of the parameter. The pattern
looks at one character in front of the `@` and knows nothing of quoted text: it
finds the references of a text exactly when none stands in quoted text or in a
comment, but right behind a quote, and none outside of these follows a quote.
-/

namespace SqlxData.Macros

open SqlxData.Dynamic NumberedText

/-! ### Parameters -/

structure DmlParameter where
  name : List Char
  isPool : Bool
  isDynamicParam : Bool

/-- The parameters of a method; Rust does not let two have one name. -/
structure MethodParameters where
  parameters : List DmlParameter
  nodup : (parameters.map DmlParameter.name).Nodup

namespace MethodParameters

/-- The parameters whose values are bound. -/
def query (params : MethodParameters) : List DmlParameter :=
  params.parameters.filter fun p => !p.isPool && !p.isDynamicParam

/-- The entries of the map; no name comes twice. -/
def paramMap (params : MethodParameters) : List (List Char × ℕ) :=
  params.query.zipIdx.map fun (param, index) => (param.name, index + 1)

/-- One order of the map. -/
structure Order (params : MethodParameters) where
  order : List (List Char × ℕ)
  perm : order.Perm params.paramMap

end MethodParameters

/-! ### The pattern -/

/-- The class in front of the `@`. -/
def isParamPrefix (c : Char) : Bool := !isIdentChar c && c ≠ '@' && c ≠ '\''

/-- The name behind an `@` at the start of a text. -/
def nameAt : List Char → Option (List Char)
  | '@' :: c :: cs => if isIdentStart c then some (c :: cs.takeWhile isIdentChar) else none
  | _ => none

/-- The match of `NAMED_PARAM_REGEX` at the start of a text, its two groups;
`atStart` says whether nothing stands in front of it. -/
def namedParamAt (atStart : Bool) (cs : List Char) : Option (List Char × List Char) :=
  match if atStart then nameAt cs else none with
  | some name => some ([], name)
  | none =>
      match cs with
      | c :: cs => if isParamPrefix c then (nameAt cs).map fun name => ([c], name) else none
      | [] => none

/-- A character outside of all matches, or a match. -/
inductive Part
  | char (c : Char)
  | param (pre name : List Char)

/-- The matches from left to right; `skip` counts the characters that belong to
the last one. -/
def partsFrom : ℕ → Bool → List Char → List Part
  | _, _, [] => []
  | skip + 1, _, _ :: cs => partsFrom skip false cs
  | 0, atStart, c :: cs =>
      match namedParamAt atStart (c :: cs) with
      | some (pre, name) => .param pre name :: partsFrom (pre.length + name.length) false cs
      | none => .char c :: partsFrom 0 false cs

def namedParams (sql : List Char) : List Part := partsFrom 0 true sql

def Part.name : Part → Option (List Char)
  | .char _ => none
  | .param _ name => some name

/-- The names the pattern finds. -/
def capturedNames (sql : List Char) : List (List Char) := (namedParams sql).filterMap Part.name

/-! ### The conversion -/

def placeholderPrefix : Backend → String
  | .mysql => "?"
  | _ => "$"

def Part.replaced (backend : Backend) (map : List (List Char × ℕ)) : Part → List Char
  | .char c => [c]
  | .param pre name =>
      match map.lookup name with
      | some index =>
          if placeholderPrefix backend = "?" then pre ++ (placeholderPrefix backend).toList
          else pre ++ (placeholderPrefix backend ++ toString index).toList
      | none => pre ++ '@' :: name

def commaJoined (names : List (List Char)) : String :=
  ", ".intercalate (names.map String.ofList)

def convertNamedToPositionalInSql (backend : Backend) (params : MethodParameters)
    (it : params.Order) (sql : List Char) : Except SynError (List Char) :=
  if '@' ∉ sql then .ok sql
  else if (capturedNames sql).isEmpty then .ok sql
  else if params.paramMap.isEmpty then .ok sql
  else
    let unknownParams := firstUse []
      ((capturedNames sql).filter fun name => (params.paramMap.lookup name).isNone)
    if unknownParams.isEmpty then
      .ok ((namedParams sql).flatMap (Part.replaced backend params.paramMap))
    else
      .error (synError ("Unknown named parameters in SQL: [" ++ commaJoined unknownParams ++
        "]. Available parameters: [" ++ commaJoined (it.order.map Prod.fst) ++ "]"))

/-! ### References -/

namespace NamedParams

/-- A character, and whether it stands in code. -/
abbrev Mark := Char × Bool

def marks (L : Lexer) (sql : List Char) : List Mark :=
  (L.lex sql).flatMap fun l => l.text.map fun c => (c, l.kind = .code)

theorem marks_map_fst (L : Lexer) (sql : List Char) : (marks L sql).map Prod.fst = sql := by
  rw [marks, List.map_flatMap]
  simp only [List.map_map]
  exact (List.flatMap_congr fun l _ => List.map_id' l.text).trans (L.spell_lex sql)

/-- A character of the text, or a name with its `@`. -/
inductive Piece
  | char (c : Char)
  | ref (name : List Char)
  deriving DecidableEq

def Piece.name : Piece → Option (List Char)
  | .char _ => none
  | .ref name => some name

def Piece.spell (put : List Char → List Char) : Piece → List Char
  | .char c => [c]
  | .ref name => put name

def spellPieces (put : List Char → List Char) (ps : List Piece) : List Char :=
  ps.flatMap (Piece.spell put)

def startsName (ms : List Mark) : Bool := (nameAt (ms.map Prod.fst)).isSome

/-- The run of name characters at the start. -/
def nameRun (ms : List Mark) : List Mark := ms.takeWhile fun m => isIdentChar m.1

section Scan

variable (found : Option Char → List Mark → Bool)

/-- The pieces of a text, with a name wherever one is found; `prev` is the
character in front, `inName` says that characters of a name go with it. -/
def scan : Option Char → Bool → List Mark → List Piece
  | _, _, [] => []
  | prev, inName, m :: ms =>
      if inName && isIdentChar m.1 then scan (some m.1) true ms
      else if found prev (m :: ms) then
        .ref ((nameRun ms).map Prod.fst) :: scan (some m.1) true ms
      else .char m.1 :: scan (some m.1) false ms

end Scan

/-- Neither a character of a name nor an `@`. -/
def isBoundary (c : Char) : Bool := !isIdentChar c && c ≠ '@'

/-- The pattern matches, with its prefix in front. -/
def matched (prev : Option Char) (ms : List Mark) : Bool :=
  startsName ms && prev.all isParamPrefix

/-- The `@` and the name at the start stand in code. -/
def inCode (ms : List Mark) : Bool := ms.head?.all (·.2) && (nameRun ms.tail).all (·.2)

/-- A name with its `@`, outside of quoted text and comments. -/
def referenced (prev : Option Char) (ms : List Mark) : Bool :=
  startsName ms && prev.all isBoundary && inCode ms

def referencePieces (L : Lexer) (sql : List Char) : List Piece :=
  scan referenced none false (marks L sql)

/-- The names outside of quoted text and comments. -/
def references (L : Lexer) (sql : List Char) : List (List Char) :=
  (referencePieces L sql).filterMap Piece.name

def names (params : MethodParameters) : List (List Char) :=
  params.query.map DmlParameter.name

/-- `$k` for the parameter at position `k`. -/
def numbered (params : MethodParameters) (name : List Char) : List Char :=
  '$' :: (toString ((names params).idxOf name + 1)).toList

/-- There is an error exactly when a reference is no parameter, else every
reference has become the number of its parameter. -/
def NamesConverted (L : Lexer) (backend : Backend) (params : MethodParameters)
    (it : params.Order) (sql : List Char) : Prop :=
  ((∃ name ∈ references L sql, name ∉ names params) ∧
      ∃ err, convertNamedToPositionalInSql backend params it sql = .error err) ∨
    (∀ name ∈ references L sql, name ∈ names params) ∧
      convertNamedToPositionalInSql backend params it sql =
        .ok (spellPieces (numbered params) (referencePieces L sql))

/-! ### Scans -/

theorem nameAt_eq_some {cs name : List Char} (h : nameAt cs = some name) :
    ∃ c rest, cs = '@' :: c :: rest ∧ isIdentChar c = true ∧
      name = (c :: rest).takeWhile isIdentChar := by
  unfold nameAt at h
  split at h
  · rename_i c rest
    split at h
    · rename_i hstart
      have hc := isIdentChar_of_isIdentStart hstart
      exact ⟨c, rest, rfl, hc, by rw [List.takeWhile_cons_of_pos hc, ← Option.some.inj h]⟩
    · cases h
  · cases h

theorem nameRun_map_fst (ms : List Mark) :
    (nameRun ms).map Prod.fst = (ms.map Prod.fst).takeWhile isIdentChar := by
  rw [List.takeWhile_map]
  rfl

theorem startsName_cons {m : Mark} {ms : List Mark} (h : startsName (m :: ms) = true) :
    m.1 = '@' ∧ nameAt ((m :: ms).map Prod.fst) = some ((nameRun ms).map Prod.fst) := by
  obtain ⟨name, hname⟩ := Option.isSome_iff_exists.mp h
  obtain ⟨c, rest, hcs, -, rfl⟩ := nameAt_eq_some hname
  obtain ⟨hm, hms⟩ := List.cons.inj hcs
  rw [hname, nameRun_map_fst, hms]
  exact ⟨hm, rfl⟩

section Scans

variable {found found' : Option Char → List Mark → Bool}

/-- Two scans find names at the same places. -/
def SameFrom (found found' : Option Char → List Mark → Bool) : Option Char → List Mark → Prop
  | _, [] => True
  | prev, m :: ms =>
      found prev (m :: ms) = found' prev (m :: ms) ∧ SameFrom found found' (some m.1) ms

instance decidableSameFrom : ∀ prev ms, Decidable (SameFrom found found' prev ms)
  | _, [] => inferInstanceAs (Decidable True)
  | _, m :: ms =>
      have := decidableSameFrom (some m.1) ms
      inferInstanceAs (Decidable (_ ∧ _))

theorem scan_congr {prev : Option Char} {inName : Bool} {ms : List Mark}
    (h : SameFrom found found' prev ms) :
    scan found prev inName ms = scan found' prev inName ms := by
  induction ms generalizing prev inName with
  | nil => rfl
  | cons m ms ih => simp only [scan, h.1, ih h.2]

/-- Where a name is found decides the text. -/
theorem sameFrom_of_spell_eq {put : List Char → List Char}
    (hput : ∀ name, ∃ rest, put name = '$' :: rest)
    (hfound : ∀ prev ms, found prev ms = true → startsName ms = true)
    (hfound' : ∀ prev ms, found' prev ms = true → startsName ms = true)
    {prev : Option Char} {inName : Bool} {ms : List Mark}
    (h : spellPieces put (scan found prev inName ms) =
      spellPieces put (scan found' prev inName ms)) : SameFrom found found' prev ms := by
  induction ms generalizing prev inName with
  | nil => trivial
  | cons m ms ih =>
      have hne (hm : m.1 ≠ '@') : found prev (m :: ms) = found' prev (m :: ms) := by
        rw [Bool.eq_false_iff.mpr fun hf => hm (startsName_cons (hfound _ _ hf)).1,
          Bool.eq_false_iff.mpr fun hf => hm (startsName_cons (hfound' _ _ hf)).1]
      obtain ⟨rest, hrest⟩ := hput ((nameRun ms).map Prod.fst)
      rw [scan, scan] at h
      by_cases hin : (inName && isIdentChar m.1) = true
      · have hm : m.1 ≠ '@' := by
          rintro hat
          rw [hat, show isIdentChar '@' = false by decide, Bool.and_false] at hin
          cases hin
        rw [if_pos hin, if_pos hin] at h
        exact ⟨hne hm, ih h⟩
      · rw [if_neg hin, if_neg hin] at h
        cases hf : found prev (m :: ms) <;> cases hf' : found' prev (m :: ms) <;>
          simp only [hf, hf', if_true, if_false, Bool.false_eq_true, spellPieces,
            List.flatMap_cons, Piece.spell] at h
        · exact ⟨by rw [hf, hf'], ih (List.append_cancel_left h)⟩
        · -- an `@` against a `$`
          have hat := (startsName_cons (hfound' _ _ hf')).1
          rw [hrest, hat] at h
          simp at h
        · have hat := (startsName_cons (hfound _ _ hf)).1
          rw [hrest, hat] at h
          simp at h
        · exact ⟨by rw [hf, hf'], ih (List.append_cancel_left h)⟩

theorem sameFrom_iff {prev : Option Char} {ms : List Mark} :
    SameFrom found found' prev ms ↔ ∀ pre post, ms = pre ++ post → post ≠ [] →
      found ((pre.getLast?.map Prod.fst).or prev) post =
        found' ((pre.getLast?.map Prod.fst).or prev) post := by
  induction ms generalizing prev with
  | nil => simp [SameFrom]
  | cons m ms ih =>
      rw [SameFrom, ih]
      constructor
      · rintro ⟨hhere, hthere⟩ pre post heq hpost
        cases pre with
        | nil =>
            obtain rfl : m :: ms = post := heq
            exact hhere
        | cons p pre =>
            obtain ⟨rfl, rfl⟩ := List.cons.inj heq
            have := hthere pre post rfl hpost
            cases hlast : pre.getLast? with
            | none => simpa [hlast, List.getLast?_cons] using this
            | some l => simpa [hlast, List.getLast?_cons] using this
      · intro h
        refine ⟨h [] (m :: ms) rfl (by simp), fun pre post heq hpost => ?_⟩
        have := h (m :: pre) post (by rw [heq]; rfl) hpost
        cases hlast : pre.getLast? with
        | none => simpa [hlast, List.getLast?_cons] using this
        | some l => simpa [hlast, List.getLast?_cons] using this

theorem scan_cons (prev : Option Char) (m : Mark) (ms : List Mark) :
    scan found prev false (m :: ms) =
      if found prev (m :: ms) then .ref ((nameRun ms).map Prod.fst) :: scan found (some m.1) true ms
      else .char m.1 :: scan found (some m.1) false ms := by
  rw [scan, if_neg (by simp)]

/-- Behind a name the scan goes on where its characters end. -/
theorem scan_inName (prev : Option Char) (ms : List Mark) :
    scan found prev true ms =
      scan found (((nameRun ms).getLast?.map Prod.fst).or prev) false
        (ms.dropWhile fun m => isIdentChar m.1) := by
  induction ms generalizing prev with
  | nil => rfl
  | cons m ms ih =>
      by_cases hm : isIdentChar m.1 = true
      · have hrun : nameRun (m :: ms) = m :: nameRun ms := List.takeWhile_cons_of_pos hm
        have hdrop : (m :: ms).dropWhile (fun m => isIdentChar m.1) =
            ms.dropWhile fun m => isIdentChar m.1 := List.dropWhile_cons_of_pos hm
        rw [scan, if_pos (by simpa using hm), ih, hdrop, hrun, List.getLast?_cons]
        cases (nameRun ms).getLast? <;> rfl
      · have hrun : nameRun (m :: ms) = [] := List.takeWhile_cons_of_neg hm
        have hdrop : (m :: ms).dropWhile (fun m => isIdentChar m.1) = m :: ms :=
          List.dropWhile_cons_of_neg hm
        have hleft : (true && isIdentChar m.1) = false := by simpa using hm
        rw [hdrop, hrun]
        change scan found prev true (m :: ms) = scan found prev false (m :: ms)
        rw [scan, scan, hleft]
        rfl

/-- A scan that finds no name leaves the text. -/
theorem spell_scan_of_no_names {put : List Char → List Char} {prev : Option Char} {ms : List Mark}
    (h : (scan found prev false ms).filterMap Piece.name = []) :
    spellPieces put (scan found prev false ms) = ms.map Prod.fst := by
  induction ms generalizing prev with
  | nil => rfl
  | cons m ms ih =>
      rw [scan_cons] at h ⊢
      cases hf : found prev (m :: ms) with
      | true => simp [hf, Piece.name] at h
      | false =>
          simp only [hf, Bool.false_eq_true, if_false] at h ⊢
          exact congrArg (m.1 :: ·) (ih (by simpa [Piece.name] using h))

end Scans

/-! ### The pattern as a scan -/

/-- The pieces of a part; the prefix stays. -/
def partPieces : Part → List Piece
  | .char c => [.char c]
  | .param pre name => pre.map .char ++ [.ref name]

theorem partsFrom_skip (skip : ℕ) (atStart : Bool) (cs : List Char) (h : skip ≠ 0) :
    partsFrom skip atStart cs = partsFrom 0 false (cs.drop skip) := by
  induction cs generalizing skip atStart with
  | nil => cases skip <;> simp [partsFrom]
  | cons c cs ih =>
      obtain ⟨skip, rfl⟩ := Nat.exists_eq_succ_of_ne_zero h
      rw [partsFrom, List.drop_succ_cons]
      by_cases hskip : skip = 0
      · rw [hskip, List.drop_zero]
      · exact ih skip false hskip

theorem drop_takeWhile_length {α : Type} (p : α → Bool) (xs : List α) :
    xs.drop (xs.takeWhile p).length = xs.dropWhile p := by
  calc xs.drop (xs.takeWhile p).length
      = (xs.takeWhile p ++ xs.dropWhile p).drop (xs.takeWhile p).length := by
        rw [List.takeWhile_append_dropWhile]
    _ = xs.dropWhile p := List.drop_left

theorem matched_of_isIdentChar {c : Char} (hc : isIdentChar c = true) (ms : List Mark) :
    matched (some c) ms = false := by
  simp [matched, isParamPrefix, hc]

/-- A name with its `@` at the start. -/
theorem nameAt_map_fst (m : Mark) (ms : List Mark) :
    nameAt ((m :: ms).map Prod.fst) =
      if startsName (m :: ms) then some ((nameRun ms).map Prod.fst) else none := by
  split_ifs with h
  · exact (startsName_cons h).2
  · simpa [startsName] using h

/-- The pattern takes a name at the very start, or one behind its prefix. -/
theorem namedParamAt_eq (atStart : Bool) (m : Mark) (ms : List Mark) :
    namedParamAt atStart ((m :: ms).map Prod.fst) =
      if atStart && matched none (m :: ms) then some ([], (nameRun ms).map Prod.fst)
      else if matched (some m.1) ms then some ([m.1], (nameRun ms.tail).map Prod.fst)
      else none := by
  have hbehind : (if isParamPrefix m.1 then (nameAt (ms.map Prod.fst)).map fun name => ([m.1], name)
      else none) =
      if matched (some m.1) ms then some ([m.1], (nameRun ms.tail).map Prod.fst) else none := by
    cases ms with
    | nil => cases isParamPrefix m.1 <;> rfl
    | cons a ms =>
        rw [nameAt_map_fst]
        cases hprefix : isParamPrefix m.1 <;> cases hstarts : startsName (a :: ms) <;>
          simp [matched, hprefix, hstarts]
  have hhere : (if atStart then nameAt ((m :: ms).map Prod.fst) else none) =
      if atStart && matched none (m :: ms) then some ((nameRun ms).map Prod.fst) else none := by
    rw [nameAt_map_fst]
    cases atStart <;> cases hstarts : startsName (m :: ms) <;> simp [matched, hstarts]
  unfold namedParamAt
  rw [hhere, ← hbehind]
  cases atStart && matched none (m :: ms) <;> rfl

theorem nameRun_ne_nil {m : Mark} {ms : List Mark} (h : startsName (m :: ms) = true) :
    nameRun ms ≠ [] := by
  obtain ⟨name, hname⟩ := Option.isSome_iff_exists.mp h
  obtain ⟨c, rest, hcs, hc, -⟩ := nameAt_eq_some hname
  have hrun := nameRun_map_fst ms
  rw [(List.cons.inj hcs).2, List.takeWhile_cons_of_pos hc] at hrun
  intro hnil
  rw [hnil] at hrun
  cases hrun

/-- Prefixes that are taken with a match do not hide another one: the character
in front of a name's `@` is no part of a name. -/
theorem pieces_partsFrom {atStart : Bool} {prev : Option Char} {ms : List Mark}
    (h : atStart = true ∧ prev = none ∨ atStart = false ∧ matched prev ms = false) :
    (partsFrom 0 atStart (ms.map Prod.fst)).flatMap partPieces =
      scan matched prev false ms := by
  induction hn : ms.length using Nat.strong_induction_on generalizing atStart prev ms with
  | _ n ih =>
  -- a match is taken, and the pattern goes on where its name ends
  have hafter (c : Char) (rest : List Mark) (hlt : rest.length < n) (hrun : nameRun rest ≠ []) :
      (partsFrom ((nameRun rest).map Prod.fst).length false (rest.map Prod.fst)).flatMap
        partPieces = scan matched (some c) true rest := by
    have hdrop : (rest.map Prod.fst).drop ((nameRun rest).map Prod.fst).length =
        (rest.dropWhile fun m => isIdentChar m.1).map Prod.fst := by
      rw [List.length_map, ← List.map_drop, nameRun, drop_takeWhile_length]
    rw [partsFrom_skip _ _ _ (by simpa using hrun), hdrop, scan_inName]
    obtain ⟨last, hlast⟩ := Option.isSome_iff_exists.mp (List.getLast?_isSome.mpr hrun)
    have hident : isIdentChar last.1 = true :=
      (List.mem_takeWhile_imp (List.mem_of_getLast? hlast) : _)
    rw [hlast]
    exact ih _ ((List.dropWhile_sublist _).length_le.trans_lt hlt)
      (.inr ⟨rfl, matched_of_isIdentChar hident _⟩) rfl
  cases ms with
  | nil => rfl
  | cons m ms =>
      have hlt : ms.length < n := hn ▸ Nat.lt_succ_self ms.length
      have hparts := namedParamAt_eq atStart m ms
      rw [List.map_cons] at hparts ⊢
      rw [partsFrom, hparts, scan_cons]
      cases hstart : atStart && matched none (m :: ms) with
      | true =>
          obtain ⟨hat, hmatched⟩ := Bool.and_eq_true_iff.mp hstart
          obtain rfl : prev = none := by
            rcases h with ⟨-, hprev⟩ | ⟨hfalse, -⟩
            · exact hprev
            · rw [hfalse] at hat
              cases hat
          have hrun := nameRun_ne_nil (Bool.and_eq_true_iff.mp hmatched).1
          simp only [hmatched, if_true, List.flatMap_cons, partPieces, List.map_nil,
            List.nil_append, List.length_nil, Nat.zero_add, hafter m.1 ms hlt hrun]
          rfl
      | false =>
          have hmiss : matched prev (m :: ms) = false := by
            rcases h with ⟨rfl, rfl⟩ | ⟨-, hmiss⟩
            · simpa using hstart
            · exact hmiss
          cases hnext : matched (some m.1) ms with
          | true =>
              cases ms with
              | nil => cases hnext
              | cons a ms =>
                  have hrun := nameRun_ne_nil (Bool.and_eq_true_iff.mp hnext).1
                  have hskip : ([m.1].length + ((nameRun ms).map Prod.fst).length) =
                      ((nameRun ms).map Prod.fst).length + 1 := Nat.add_comm _ _
                  have hlt' : ms.length < n := (Nat.lt_succ_self ms.length).trans hlt
                  simp only [hmiss, Bool.false_eq_true, if_false, if_true, List.tail_cons, hskip,
                    List.map_cons, partsFrom, List.flatMap_cons, partPieces, List.map_nil,
                    hafter a.1 ms hlt' hrun, scan_cons, hnext]
                  rfl
          | false =>
              simp only [hmiss, Bool.false_eq_true, if_false, List.flatMap_cons, partPieces,
                ih ms.length hlt (.inr ⟨rfl, hnext⟩) rfl]
              rfl

/-! ### The converted text -/

section Conversion

variable {L : Lexer} {backend : Backend} {params : MethodParameters} {it : params.Order}
  {sql : List Char}

/-- The pieces the pattern finds. -/
def matchedPieces (L : Lexer) (sql : List Char) : List Piece := scan matched none false (marks L sql)

theorem pieces_namedParams (L : Lexer) (sql : List Char) :
    (namedParams sql).flatMap partPieces = matchedPieces L sql := by
  have hpieces := @pieces_partsFrom true none (marks L sql) (.inl ⟨rfl, rfl⟩)
  rwa [marks_map_fst] at hpieces

theorem capturedNames_eq (L : Lexer) (sql : List Char) :
    capturedNames sql = (matchedPieces L sql).filterMap Piece.name := by
  rw [← pieces_namedParams, List.filterMap_flatMap, capturedNames,
    List.filterMap_eq_flatMap_toList]
  refine List.flatMap_congr fun part _ => ?_
  cases part <;> simp [Part.name, partPieces, Piece.name, List.filterMap_map, Function.comp_def]

theorem at_mem_of_name {found : Option Char → List Mark → Bool}
    (hfound : ∀ prev ms, found prev ms = true → startsName ms = true) {prev : Option Char}
    {inName : Bool} {ms : List Mark} (h : '@' ∉ ms.map Prod.fst) :
    (scan found prev inName ms).filterMap Piece.name = [] := by
  induction ms generalizing prev inName with
  | nil => rfl
  | cons m ms ih =>
      rw [List.map_cons, List.mem_cons, not_or] at h
      have hmiss : found prev (m :: ms) = false :=
        Bool.eq_false_iff.mpr fun hf => h.1 (startsName_cons (hfound _ _ hf)).1.symm
      rw [scan, hmiss]
      by_cases hin : (inName && isIdentChar m.1) = true
      · rw [if_pos hin]
        exact ih h.2
      · rw [if_neg hin]
        exact ih h.2

theorem startsName_of_matched {prev : Option Char} {ms : List Mark} (h : matched prev ms = true) :
    startsName ms = true := (Bool.and_eq_true_iff.mp h).1

theorem startsName_of_referenced {prev : Option Char} {ms : List Mark}
    (h : referenced prev ms = true) : startsName ms = true :=
  (Bool.and_eq_true_iff.mp (Bool.and_eq_true_iff.mp h).1).1

theorem lookup_zipIdx (ps : List DmlParameter) (n : ℕ) (name : List Char) :
    ((ps.zipIdx n).map fun (param, index) => (param.name, index + 1)).lookup name =
      if name ∈ ps.map DmlParameter.name then
        some (n + (ps.map DmlParameter.name).idxOf name + 1)
      else none := by
  induction ps generalizing n with
  | nil => rfl
  | cons p ps ih =>
      rw [List.zipIdx_cons, List.map_cons, List.lookup_cons, ih]
      by_cases hname : name = p.name
      · simp [hname]
      · have hbeq : (name == p.name) = false := by simpa using hname
        simp only [hbeq, List.map_cons, List.mem_cons, hname, false_or,
          List.idxOf_cons_ne _ (Ne.symm hname)]
        split_ifs
        · simp only [Option.some.injEq]
          omega
        · rfl

/-- A parameter is found under its position. -/
theorem lookup_paramMap (params : MethodParameters) (name : List Char) :
    params.paramMap.lookup name =
      if name ∈ names params then some ((names params).idxOf name + 1) else none := by
  rw [MethodParameters.paramMap, lookup_zipIdx, names]
  simp only [Nat.zero_add]

theorem replaced_eq_spell (hbackend : backend ≠ .mysql) {part : Part}
    (h : ∀ name ∈ part.name, name ∈ names params) :
    part.replaced backend params.paramMap = spellPieces (numbered params) (partPieces part) := by
  cases part with
  | char c => rfl
  | param pre name =>
      have hpre : spellPieces (numbered params) (pre.map .char) = pre := by
        simp [spellPieces, List.flatMap_map, Piece.spell]
      have hprefix : placeholderPrefix backend = "$" := by
        cases backend with
        | mysql => exact absurd rfl hbackend
        | sqlite | postgres => rfl
      have happend : spellPieces (numbered params) (pre.map .char ++ [.ref name]) =
          pre ++ numbered params name := by
        rw [spellPieces, List.flatMap_append]
        exact congrArg₂ _ hpre (List.append_nil _)
      rw [Part.replaced, lookup_paramMap, if_pos (h name rfl), partPieces, happend, hprefix]
      simp [numbered]

theorem paramMap_isEmpty (params : MethodParameters) :
    params.paramMap.isEmpty = params.query.isEmpty := by
  cases hquery : params.query <;> simp [MethodParameters.paramMap, hquery]

theorem unknown_isEmpty_iff (params : MethodParameters) (ns : List (List Char)) :
    (firstUse [] (ns.filter fun name => (params.paramMap.lookup name).isNone)).isEmpty = true ↔
      ∀ name ∈ ns, name ∈ names params := by
  rw [List.isEmpty_iff, List.eq_nil_iff_forall_not_mem]
  refine forall_congr' fun name => ?_
  simp only [mem_firstUse, List.mem_filter, lookup_paramMap]
  by_cases hname : name ∈ names params <;> simp [hname]

/-- Without a match, or without a parameter, the text is left alone. -/
theorem convert_eq_self (h : capturedNames sql = [] ∨ params.query = []) :
    convertNamedToPositionalInSql backend params it sql = .ok sql := by
  unfold convertNamedToPositionalInSql
  by_cases hat : '@' ∉ sql
  · rw [if_pos hat]
  · rw [if_neg hat, paramMap_isEmpty]
    rcases h with hnone | hquery
    · rw [hnone, List.isEmpty_nil, if_pos rfl]
    · rw [hquery, List.isEmpty_nil, if_pos rfl, ite_self]

theorem at_mem_of_captured (h : capturedNames sql ≠ []) : '@' ∈ sql := by
  by_contra hat
  refine h ?_
  rw [capturedNames_eq Lexer.standard]
  exact at_mem_of_name (fun _ _ => startsName_of_matched) (by rwa [marks_map_fst])

theorem convert_of_known (L : Lexer) (hbackend : backend ≠ .mysql) (hquery : params.query ≠ [])
    (h : ∀ name ∈ capturedNames sql, name ∈ names params) :
    convertNamedToPositionalInSql backend params it sql =
      .ok (spellPieces (numbered params) (matchedPieces L sql)) := by
  by_cases hnone : capturedNames sql = []
  · rw [convert_eq_self (.inl hnone)]
    rw [capturedNames_eq L] at hnone
    exact congrArg Except.ok ((spell_scan_of_no_names hnone).trans (marks_map_fst L sql)).symm
  · have hreplaced : (namedParams sql).flatMap (Part.replaced backend params.paramMap) =
        spellPieces (numbered params) (matchedPieces L sql) := by
      rw [← pieces_namedParams, spellPieces, List.flatMap_assoc]
      refine List.flatMap_congr fun part hpart => replaced_eq_spell hbackend fun name hname => ?_
      exact h name (List.mem_filterMap.mpr ⟨part, hpart, hname⟩)
    unfold convertNamedToPositionalInSql
    rw [if_neg (not_not.mpr (at_mem_of_captured hnone)), if_neg (by simpa using hnone),
      if_neg (by simpa [paramMap_isEmpty] using hquery)]
    exact (if_pos ((unknown_isEmpty_iff params _).mpr h)).trans (congrArg Except.ok hreplaced)

theorem convert_of_unknown (hquery : params.query ≠ [])
    (h : ∃ name ∈ capturedNames sql, name ∉ names params) :
    ∃ err, convertNamedToPositionalInSql backend params it sql = .error err := by
  obtain ⟨name, hname, hunknown⟩ := h
  have hsome : capturedNames sql ≠ [] := List.ne_nil_of_mem hname
  unfold convertNamedToPositionalInSql
  rw [if_neg (not_not.mpr (at_mem_of_captured hsome)), if_neg (by simpa using hsome),
    if_neg (by simpa [paramMap_isEmpty] using hquery)]
  exact ⟨_, if_neg fun hnone => hunknown ((unknown_isEmpty_iff params _).mp hnone name hname)⟩

/-! ### Where the pattern goes wrong -/

/-- The pattern matches, but not in code. -/
def Hidden (prev : Option Char) (ms : List Mark) : Prop :=
  matched prev ms = true ∧ inCode ms = false

/-- A reference right behind a single quote. -/
def Missed (prev : Option Char) (ms : List Mark) : Prop :=
  referenced prev ms = true ∧ prev = some '\''

/-- No name in quoted text or in a comment has a prefix of the pattern, and no
reference stands behind a single quote. -/
def PatternExact (L : Lexer) (sql : List Char) : Prop :=
  ∀ pre post, marks L sql = pre ++ post → post ≠ [] →
    ¬ Hidden (pre.getLast?.map Prod.fst) post ∧ ¬ Missed (pre.getLast?.map Prod.fst) post

theorem isParamPrefix_eq (c : Char) : isParamPrefix c = (isBoundary c && c ≠ '\'') := rfl

theorem matched_eq_referenced_iff (prev : Option Char) (ms : List Mark) :
    matched prev ms = referenced prev ms ↔ ¬ Hidden prev ms ∧ ¬ Missed prev ms := by
  rw [Hidden, Missed, matched, referenced]
  cases prev with
  | none => cases startsName ms <;> cases inCode ms <;> simp
  | some c =>
      simp only [Option.all_some, isParamPrefix_eq, Option.some.injEq]
      by_cases hquote : c = '\''
      · cases startsName ms <;> cases isBoundary c <;> cases inCode ms <;> simp [hquote]
      · cases startsName ms <;> cases isBoundary c <;> cases inCode ms <;> simp [hquote]

theorem patternExact_iff (L : Lexer) (sql : List Char) :
    PatternExact L sql ↔ SameFrom matched referenced none (marks L sql) := by
  rw [sameFrom_iff, PatternExact]
  simp only [Option.or_none, matched_eq_referenced_iff]

/-- With parameters, and no name that is none of them: the text is right
exactly when the pattern is. -/
theorem spell_eq_iff (L : Lexer) (params : MethodParameters) (sql : List Char) :
    spellPieces (numbered params) (matchedPieces L sql) =
        spellPieces (numbered params) (referencePieces L sql) ↔ PatternExact L sql := by
  rw [patternExact_iff]
  constructor
  · exact sameFrom_of_spell_eq (fun name => ⟨_, rfl⟩) (fun _ _ => startsName_of_matched)
      fun _ _ => startsName_of_referenced
  · intro hsame
    rw [matchedPieces, referencePieces, scan_congr hsame]

theorem references_eq_of_exact {L : Lexer} (h : PatternExact L sql) :
    references L sql = capturedNames sql := by
  rw [capturedNames_eq L, references, matchedPieces, referencePieces,
    scan_congr ((patternExact_iff L sql).mp h)]

/-- The conversion is right without a parameter exactly when there is no
reference. With parameters it is right exactly when the pattern finds the
references and nothing else, or finds an unknown name as there is one. -/
theorem names_converted_iff (L : Lexer) {backend : Backend} (hbackend : backend ≠ .mysql)
    (params : MethodParameters) (it : params.Order) (sql : List Char) :
    NamesConverted L backend params it sql ↔
      params.query = [] ∧ references L sql = [] ∨
      params.query ≠ [] ∧ (PatternExact L sql ∨
        (∃ name ∈ references L sql, name ∉ names params) ∧
          ∃ name ∈ capturedNames sql, name ∉ names params) := by
  rw [NamesConverted]
  by_cases hquery : params.query = []
  · have hnames : names params = [] := by rw [names, hquery, List.map_nil]
    simp only [convert_eq_self (.inr hquery), hnames, hquery, List.not_mem_nil, not_false_eq_true,
      and_true, reduceCtorEq, exists_false, and_false, false_or, imp_false, ne_eq, not_true,
      false_and, or_false, true_and]
    rw [← List.eq_nil_iff_forall_not_mem]
    refine and_iff_left_of_imp fun hnone => ?_
    exact congrArg Except.ok ((spell_scan_of_no_names hnone).trans (marks_map_fst L sql)).symm
  · simp only [hquery, false_and, false_or, ne_eq, not_false_eq_true, true_and]
    by_cases hcaptured : ∃ name ∈ capturedNames sql, name ∉ names params
    · obtain ⟨err, herr⟩ := @convert_of_unknown backend params it sql hquery hcaptured
      constructor
      · rintro (⟨hunknown, -⟩ | ⟨-, hok⟩)
        · exact .inr ⟨hunknown, hcaptured⟩
        · rw [herr] at hok
          cases hok
      · rintro (hexact | ⟨hunknown, -⟩)
        · exact .inl ⟨by rwa [references_eq_of_exact hexact], err, herr⟩
        · exact .inl ⟨hunknown, err, herr⟩
    · have hknown : ∀ name ∈ capturedNames sql, name ∈ names params := by
        simpa using hcaptured
      have hok := @convert_of_known backend params it sql L hbackend hquery hknown
      constructor
      · rintro (⟨-, err, herr⟩ | ⟨-, htext⟩)
        · rw [hok] at herr
          cases herr
        · exact .inl ((spell_eq_iff L params sql).mp (Except.ok.inj (hok.symm.trans htext)))
      · rintro (hexact | ⟨-, hunknown⟩)
        · refine .inr ⟨by rwa [references_eq_of_exact hexact], ?_⟩
          rw [hok, (spell_eq_iff L params sql).mpr hexact]
        · exact absurd hunknown hcaptured

end Conversion

/-! ### Examples -/

/-- A method with a parameter `name`. -/
def nameParam : MethodParameters := ⟨[⟨"name".toList, false, false⟩], by decide⟩

def nameOrder : nameParam.Order := ⟨nameParam.paramMap, List.Perm.refl _⟩

/-- A name in a string literal becomes a number. -/
theorem literal_converted :
    convertNamedToPositionalInSql .postgres nameParam nameOrder
        "SELECT 'ask @name' WHERE a = @name".toList =
      .ok "SELECT 'ask $1' WHERE a = $1".toList ∧
    ¬ NamesConverted Lexer.standard .postgres nameParam nameOrder
      "SELECT 'ask @name' WHERE a = @name".toList := by
  have hconvert : convertNamedToPositionalInSql .postgres nameParam nameOrder
      "SELECT 'ask @name' WHERE a = @name".toList =
        .ok "SELECT 'ask $1' WHERE a = $1".toList := by
    decide +kernel
  refine ⟨hconvert, ?_⟩
  rintro (⟨hunknown, -⟩ | ⟨-, hok⟩)
  · exact absurd hunknown (by decide +kernel)
  · rw [hconvert] at hok
    exact absurd (Except.ok.inj hok) (by decide +kernel)

/-- A text the conversion gets right: the literal starts with the name. -/
theorem reference_converted :
    NamesConverted Lexer.standard .postgres nameParam nameOrder
      "SELECT '@name' WHERE a = @name".toList := by
  refine (names_converted_iff Lexer.standard (by decide) nameParam nameOrder _).mpr
    (.inr ⟨by decide, .inl ?_⟩)
  exact (patternExact_iff Lexer.standard _).mpr (by decide +kernel)

end NamedParams

end SqlxData.Macros
