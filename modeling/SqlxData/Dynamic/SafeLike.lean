import SqlxData.Dynamic.FilterTruth
import SqlxData.Lib.Like

/-!
The LIKE filters and the search, with LIKE as the servers read it. The text of
the user is bound as the pattern, as it is, so it is taken literally exactly
when none of its characters is special in a pattern.
-/

namespace SqlxData.Dynamic

open SqlxData.Sqlparser Comparisons ThreeValued

/-! ### LIKE on a server -/

/-- The escape character of a LIKE; without a clause SQLite has none. -/
def clauseEscape (backend : Backend) : Option Value → Option Char
  | some (.singleQuotedString s) => s.toList.head?
  | some _ => none
  | none =>
      match backend with
      | .sqlite => none
      | _ => some Like.backslash

/-- An escape at the end stands for itself on MySQL; Postgres refuses the
pattern, and on SQLite nothing matches it. -/
def escaping (backend : Backend) (clause : Option Value) : Like.Escaping :=
  ⟨clauseEscape backend clause, backend = .mysql⟩

/-- A server, as far as LIKE and LOWER go. -/
structure LikeServer (cfg : Config) where
  /-- The characters LIKE does not tell apart: letters in upper and lower case on
  SQLite, and what the collation says on MySQL. -/
  same : Char → Char → Bool
  same_self : ∀ a, same a a = true
  lowerChar : Char → List Char
  lowerChar_percent : lowerChar '%' = ['%']
  /-- What is in lower case stays. -/
  lowerChar_lowerChar : ∀ a, ∀ b ∈ lowerChar a, lowerChar b = [b]
  /-- What `to_lowercase` gives stays. -/
  lowerChar_toLowercase : ∀ s, ∀ b ∈ (cfg.toLowercase s).toList, lowerChar b = [b]

namespace LikeServer

variable {cfg : Config} (S : LikeServer cfg)

def lower (cs : List Char) : List Char := cs.flatMap S.lowerChar

/-- Texts, with `compare` for the other tests. ILIKE lowers both sides. -/
def comparisons (compare : BinaryOperator → List Char → List Char → Bool) :
    Comparisons (List Char) where
  bound
    | .string s => some s.toList
    | _ => none
  lower := S.lower
  compare := compare
  like clause cs pattern := Like.like S.same (escaping cfg.backend clause) cs pattern
  ilike clause cs pattern :=
    Like.like S.same (escaping cfg.backend clause) (S.lower cs) (S.lower pattern)

end LikeServer

/-! ### The four ways to LIKE -/

/-- A filter or a search that is meant to take its text literally. -/
inductive SafeLike
  | like (field : String)
  | contains (field : String)
  | iLike (field : String)
  | search (fields : List String) (caseSensitive : Bool)

namespace SafeLike

/-- The request for the text `u` of the user. -/
def params (u : String) : SafeLike → Params
  | .like field => { Params.default with filters := some ⟨[⟨field, .like, .string u, false⟩]⟩ }
  | .contains field =>
      { Params.default with filters := some ⟨[⟨field, .contains, .string u, false⟩]⟩ }
  | .iLike field => { Params.default with filters := some ⟨[⟨field, .iLike, .string u, false⟩]⟩ }
  | .search fields caseSensitive =>
      { Params.default with search := some ⟨u, fields, caseSensitive, false⟩ }

def fields : SafeLike → List String
  | .like field | .contains field | .iLike field => [field]
  | .search fields _ => fields

/-- The whole column is compared, not a part of it. -/
def whole : SafeLike → Bool
  | .like _ | .iLike _ => true
  | .contains _ | .search _ _ => false

/-- Upper and lower case do not matter. -/
def lowered : SafeLike → Bool
  | .like _ | .contains _ => false
  | .iLike _ => true
  | .search _ caseSensitive => !caseSensitive

section Meaning

variable {cfg : Config} (S : LikeServer cfg) (way : SafeLike) (u : String)

/-- The column as it is compared. -/
def view (cs : List Char) : List Char := if way.lowered then S.lower cs else cs

/-- The text as it is compared: `to_lowercase` lowers it where there is no
ILIKE. -/
def text : List Char :=
  match way with
  | .like _ | .contains _ | .search _ true => u.toList
  | .search _ false => S.lower u.toList
  | .iLike _ =>
      match cfg.backend with
      | .postgres => S.lower u.toList
      | _ => (cfg.toLowercase u).toList

/-- The text is the column, or a part of one of the columns. -/
def Says (row : String → List Char) : Prop :=
  ∃ field ∈ way.fields,
    if way.whole then way.view S (row field) = way.text S u
    else way.text S u <:+: way.view S (row field)

/-- The characters that stand in compared columns. -/
def Seen (c : Char) : Prop := way.lowered → S.lowerChar c = [c]

/-- There is a field, no character of the text is special (on MySQL a backslash
at the end of a whole text is not), and none passes for another one. -/
structure Literal : Prop where
  fields : way.fields ≠ []
  plain : Like.Plain (way.text S u) ∨
    way.whole = true ∧ cfg.backend = .mysql ∧ Like.PlainButEnd (way.text S u)
  told : Like.Told S.same (way.Seen S) (way.text S u)

/-- The row passes the condition that goes into the WHERE. -/
def Accepts (compare : BinaryOperator → List Char → List Char → Bool) (other : Expr → Truth)
    (row : String → List Char) (parts : DynamicParts) : Prop :=
  ∀ e ∈ parts.combined, Satisfies ((S.comparisons compare).operandTruth
    ((S.comparisons compare).scalar fun name => some (row name)) other) e

variable {S way u}

/-! ### What is accepted -/

variable {compare : BinaryOperator → List Char → List Char → Bool} {other : Expr → Truth}

theorem withoutCursor_params : WithoutCursor (way.params u) := by
  intro cursor h
  cases way <;> cases h

theorem yields_dynamicParts_accepts :
    Yields (fun parts => ∀ row, Accepts S compare other row parts ↔
        (way.params u).keeps (S.comparisons compare) cfg (fun name => some (row name)) = true)
      (dynamicParts cfg (way.params u)) := by
  have hparts := (@yields_dynamicParts cfg (way.params u)).and
    (yields_dynamicParts_say (C := S.comparisons compare) withoutCursor_params)
  intro s parts s' hrun row
  obtain ⟨hshape, hmean⟩ := hparts s parts s' hrun
  have hwhere : withDynamicWhere none parts.combined = parts.combined := by
    cases parts.combined <;> rfl
  have hholds := satisfies_withDynamicWhere hshape ((S.comparisons compare).operandTruth
    ((S.comparisons compare).scalar fun name => some (row name)) other) none
  rw [hwhere, hmean _ other (reads_scalar _ _)] at hholds
  rw [Accepts, hholds]
  simp only [Option.mem_def, reduceCtorEq, IsEmpty.forall_iff, implies_true, true_and]
  rfl

/-- The pattern that is bound, or lowered and compared with a lowered column. -/
def pattern (S : LikeServer cfg) (way : SafeLike) (u : String) : List Char :=
  if way.whole then way.text S u else '%' :: (way.text S u ++ ['%'])

def sent (cfg : Config) : Like.Escaping := ⟨some Like.backslash, cfg.backend = .mysql⟩

theorem escaping_escapeChar (backend : Backend) :
    escaping backend (escapeChar backend) = ⟨some Like.backslash, backend = .mysql⟩ := by
  cases backend <;> rfl

theorem like_escapeChar (cs pattern : List Char) :
    (S.comparisons compare).like (escapeChar cfg.backend) cs pattern =
      Like.like S.same (sent cfg) cs pattern := by
  rw [sent, ← escaping_escapeChar]
  rfl

theorem bound_string (s : String) : (S.comparisons compare).bound (.string s) = some s.toList := rfl

theorem lower_wrapped (cs : List Char) :
    S.lower ('%' :: (cs ++ ['%'])) = '%' :: (S.lower cs ++ ['%']) := by
  simp [LikeServer.lower, S.lowerChar_percent]

theorem filter_keeps_iff {f : Filter} {column : String → Option (List Char)}
    {p : Params} (hfilters : p.filters = some ⟨[f]⟩) (hsearch : p.search = none) :
    p.keeps (S.comparisons compare) cfg column = true ↔
      f.truth (S.comparisons compare) cfg column = .holds := by
  simp [Params.keeps, hfilters, hsearch]

theorem keeps_iff {row : String → List Char} (hactive : way.fields ≠ [])
    (hquery : ∀ fields caseSensitive, way = .search fields caseSensitive → u ≠ "") :
    (way.params u).keeps (S.comparisons compare) cfg (fun name => some (row name)) = true ↔
      ∃ field ∈ way.fields,
        Like.like S.same (sent cfg) (way.view S (row field)) (pattern S way u) = true := by
  cases way with
  | like field =>
      rw [filter_keeps_iff rfl rfl]
      simp [Filter.truth, negateIf, bound_string, like_escapeChar, fields, view, lowered, pattern,
        whole, text]
  | contains field =>
      rw [filter_keeps_iff rfl rfl]
      simp [Filter.truth, negateIf, bound_string, like_escapeChar, fields, view, lowered, pattern,
        whole, text]
  | iLike field =>
      have hilike (clause : Option Value) (cs ps : List Char) :
          (S.comparisons compare).ilike clause cs ps =
            Like.like S.same (escaping cfg.backend clause) (S.lower cs) (S.lower ps) := rfl
      have hlower : (S.comparisons compare).lower = S.lower := rfl
      rw [filter_keeps_iff rfl rfl]
      cases hbackend : cfg.backend with
      | postgres =>
          have hsent : escaping .postgres (some backslash) = sent cfg := by
            rw [sent, hbackend]
            rfl
          simp [Filter.truth, hbackend, negateIf, bound_string, hilike, hsent, fields, view,
            lowered, pattern, whole, text]
      | sqlite | mysql =>
          simp [Filter.truth, hbackend, bound_string, ← @like_escapeChar cfg S compare,
            hlower, fields, view, lowered, pattern, whole, text]
  | search fields caseSensitive =>
      have hne : fields ≠ [] := hactive
      have hfields : SearchParams.activeFields ⟨u, fields, caseSensitive, false⟩ = fields := by
        have hempty : fields.isEmpty = false := by simpa using hne
        have hnone : u.isEmpty = false := by simpa using hquery _ _ rfl
        rw [SearchParams.activeFields, hempty, hnone]
        rfl
      have hfield (field : String) :
          SearchParams.fieldTruth (S.comparisons compare) cfg (fun name => some (row name))
              ⟨u, fields, caseSensitive, false⟩ ("%" ++ u ++ "%") field = .holds ↔
            Like.like S.same (sent cfg) (view S (.search fields caseSensitive) (row field))
              (pattern S (.search fields caseSensitive) u) = true := by
        have hlower : (S.comparisons compare).lower = S.lower := rfl
        cases caseSensitive <;>
          simp [SearchParams.fieldTruth, bound_string, like_escapeChar, view, lowered, pattern,
            whole, text, hlower, lower_wrapped]
      have hkeeps : (params u (.search fields caseSensitive)).keeps (S.comparisons compare) cfg
          (fun name => some (row name)) =
          SearchParams.passes (S.comparisons compare) cfg (fun name => some (row name))
            ⟨u, fields, caseSensitive, false⟩ := by
        simp [Params.keeps, params, Params.default]
      rw [hkeeps, SearchParams.passes, hfields, Bool.or_eq_true, List.any_eq_true]
      simp only [decide_eq_true_eq, hne, false_or]
      exact exists_congr fun field => and_congr_right fun _ => hfield field

theorem seen_percent : way.Seen S '%' := fun _ => S.lowerChar_percent

theorem seen_view (cs : List Char) : ∀ c ∈ way.view S cs, way.Seen S c := by
  intro c hc hlowered
  rw [view, if_pos hlowered] at hc
  obtain ⟨a, -, ha⟩ := List.mem_flatMap.mp hc
  exact S.lowerChar_lowerChar a c ha

theorem view_eq_self {cs : List Char} (h : ∀ c ∈ cs, way.Seen S c) : way.view S cs = cs := by
  rw [view]
  split_ifs with hlowered
  · rw [LikeServer.lower, List.flatMap_congr fun c hc => h c hc hlowered]
    simp
  · rfl

theorem seen_text : ∀ c ∈ way.text S u, way.Seen S c := by
  intro c hc hlowered
  cases way with
  | like | contains => cases hlowered
  | search fields caseSensitive =>
      cases caseSensitive with
      | true => cases hlowered
      | false =>
          obtain ⟨a, -, ha⟩ := List.mem_flatMap.mp hc
          exact S.lowerChar_lowerChar a c ha
  | iLike field =>
      rw [text] at hc
      split at hc
      · obtain ⟨a, -, ha⟩ := List.mem_flatMap.mp hc
        exact S.lowerChar_lowerChar a c ha
      · exact S.lowerChar_toLowercase u c hc

/-- One field decides: all rows may have the same text in all of them. -/
theorem forall_rows_iff {P Q : List Char → Prop} (hactive : way.fields ≠ []) :
    (∀ row : String → List Char, (∃ field ∈ way.fields, P (way.view S (row field))) ↔
        ∃ field ∈ way.fields, Q (way.view S (row field))) ↔
      ∀ cs, (∀ c ∈ cs, way.Seen S c) → (P cs ↔ Q cs) := by
  constructor
  · intro h cs hcs
    have hrow := h fun _ => cs
    rw [view_eq_self hcs] at hrow
    have hsome (R : Prop) : (∃ field ∈ way.fields, R) ↔ R := by
      obtain ⟨field, hfield⟩ := List.exists_mem_of_ne_nil _ hactive
      exact ⟨fun ⟨_, _, hR⟩ => hR, fun hR => ⟨field, hfield, hR⟩⟩
    rwa [hsome, hsome] at hrow
  · intro h row
    exact exists_congr fun field => and_congr_right fun _ => h _ (seen_view _)

/-- A search without fields or without a text adds no condition. -/
theorem keeps_search_of_idle {fields : List String} {caseSensitive : Bool}
    {column : String → Option (List Char)} (h : fields = [] ∨ u = "") :
    (params u (.search fields caseSensitive)).keeps (S.comparisons compare) cfg column = true := by
  have hfields : SearchParams.activeFields ⟨u, fields, caseSensitive, false⟩ = [] := by
    rw [SearchParams.activeFields]
    rcases h with rfl | rfl <;> simp
  simp [Params.keeps, params, Params.default, SearchParams.passes, hfields]

theorem literal_iff_forall (hactive : way.fields ≠ []) :
    (∀ cs, (∀ c ∈ cs, way.Seen S c) →
        (Like.like S.same (sent cfg) cs (pattern S way u) = true ↔
          if way.whole then cs = way.text S u else way.text S u <:+: cs)) ↔
      way.Literal S u := by
  have hliteral : way.Literal S u ↔ (Like.Plain (way.text S u) ∨
      way.whole = true ∧ cfg.backend = .mysql ∧ Like.PlainButEnd (way.text S u)) ∧
      Like.Told S.same (way.Seen S) (way.text S u) :=
    ⟨fun h => ⟨h.plain, h.told⟩, fun h => ⟨hactive, h.1, h.2⟩⟩
  rw [hliteral]
  cases hwhole : way.whole with
  | true =>
      have hiff := Like.like_iff_eq_iff (E := sent cfg) rfl S.same_self
        (seen_percent : way.Seen S '%') (seen_text : ∀ c ∈ way.text S u, way.Seen S c)
      simpa [pattern, hwhole, sent] using hiff
  | false =>
      have hiff := Like.like_closed_iff_infix_iff (E := sent cfg) rfl S.same_self
        (seen_percent : way.Seen S '%') (seen_text : ∀ c ∈ way.text S u, way.Seen S c)
      simpa [pattern, hwhole] using hiff

end Meaning

/-! ### Examples -/

theorem toLower_toLower (c : Char) : c.toLower.toLower = c.toLower := by
  unfold Char.toLower
  split
  · split
    · rename_i h h'
      simp only [UInt32.le_iff_toNat_le, UInt32.toNat_add, seval] at h h'
      omega
    · rfl
  · rfl

/-- Postgres, with letters of ASCII lowered. -/
def asciiPostgres : Config := ⟨.postgres, true, fun s => String.ofList (s.toList.map Char.toLower)⟩

def asciiServer : LikeServer asciiPostgres where
  same a b := a = b
  same_self a := decide_eq_true rfl
  lowerChar a := [a.toLower]
  lowerChar_percent := rfl
  lowerChar_lowerChar a b h := by
    rw [List.mem_singleton.mp h, toLower_toLower]
  lowerChar_toLowercase s b h := by
    obtain ⟨a, -, rfl⟩ := List.mem_map.mp (String.toList_ofList ▸ h)
    rw [toLower_toLower]

end SafeLike

end SqlxData.Dynamic
