import SqlxData.Lib.Text
import SqlxData.Macros.ScopeSystem

/-!
Aliases of a repository trait: named texts that are put in for `{{name}}` in the
SQL of its methods. Like the scopes they are kept in a map without an order
of its own. Between the trait and its methods they travel as one text, the
injected attribute.
-/

namespace SqlxData.Macros

def aliasError (msg : String) : SynError := ⟨msg⟩

/-- `char::is_whitespace`, the Unicode property White_Space. -/
def isWhitespace (c : Char) : Bool :=
  let n := c.toNat
  (9 ≤ n && n ≤ 13) || n = 0x20 || n = 0x85 || n = 0xA0 || n = 0x1680 ||
    (0x2000 ≤ n && n ≤ 0x200A) || n = 0x2028 || n = 0x2029 || n = 0x202F || n = 0x205F || n = 0x3000

/-- What no identifier contains; more than that is not asked of a name. -/
def outsideNames : List Char := [';', '=', ':', '|', ',', '"', '\\', '{', '}']

/-- A name of an alias or a scope. -/
def IsName (name : List Char) : Prop :=
  name ≠ [] ∧ ∀ c ∈ name, c ∉ outsideNames ∧ isWhitespace c = false

instance (name : List Char) : Decidable (IsName name) :=
  @instDecidableAnd _ _ inferInstance (List.decidableBAll _ name)

theorem IsName.ne_nil {name : List Char} (h : IsName name) : name ≠ [] := h.1

theorem IsName.not_mem {name : List Char} (h : IsName name) {c : Char} (hc : c ∈ outsideNames) :
    c ∉ name :=
  fun hmem => (h.2 c hmem).1 hc

theorem IsName.tight {name : List Char} (h : IsName name) : Text.Tight isWhitespace name where
  ne_nil := h.1
  head := fun c hc => by simpa using (h.2 c (List.mem_of_mem_head? hc)).2
  last := fun c hc => by simpa using (h.2 c (List.mem_of_mem_getLast? hc)).2

/-- An alias has one content under its name. -/
structure AliasManager where
  aliases : List (List Char × List Char)
  nodup : (aliases.map Prod.fst).Nodup

namespace AliasManager

def new : AliasManager := ⟨[], List.nodup_nil⟩

/-- A later content replaces an earlier one of the same name. -/
def addAlias (m : AliasManager) (name content : List Char) : AliasManager where
  aliases := m.aliases.filter (·.1 ≠ name) ++ [(name, content)]
  nodup := by
    rw [List.map_append, List.nodup_append]
    refine ⟨m.nodup.sublist (List.filter_sublist.map _), by simp, ?_⟩
    rintro a ha b hb rfl
    obtain ⟨d, hd, rfl⟩ := List.mem_map.mp ha
    simp at hb
    simp [hb] at hd

def names (m : AliasManager) : List (List Char) := m.aliases.map Prod.fst

/-- One order of the aliases. -/
structure Iteration (m : AliasManager) where
  order : List (List Char × List Char)
  perm : order.Perm m.aliases

end AliasManager

/-! ### Substitution -/

/-- `{{name}}`. -/
def aliasPattern (aliasName : List Char) : List Char := '{' :: '{' :: aliasName ++ ['}', '}']

/-- The text so far and the aliases put in so far, the last one in front. -/
structure Substitution where
  result : List Char
  substituted : List (List Char)
  changed : Bool

/-- One alias of the loop; an error keeps the state it was found in. -/
def visitAlias (st : Substitution) (entry : List Char × List Char) :
    Except (SynError × Substitution) Substitution :=
  if ¬aliasPattern entry.1 <:+: st.result then .ok st
  else if entry.1 ∈ st.substituted then
    .error (aliasError ("Circular alias reference detected: " ++ String.ofList entry.1), st)
  else
    .ok {
      result := Text.replace (aliasPattern entry.1) entry.2 st.result
      substituted := entry.1 :: st.substituted
      changed := true }

/-- One round over all aliases. -/
def visitAliases (order : List (List Char × List Char)) (st : Substitution) :
    Except (SynError × Substitution) Substitution :=
  order.foldlM visitAlias { st with changed := false }

/-- The loop, for at most so many rounds. -/
def aliasRounds (order : List (List Char × List Char)) :
    ℕ → Substitution → Option (Except (SynError × Substitution) Substitution)
  | 0, _ => none
  | n + 1, st =>
      match visitAliases order st with
      | .error err => some (.error err)
      | .ok st => if st.changed then aliasRounds order n st else some (.ok st)

/-- The name in a match of the pattern `\{\{([^}]+)\}\}` at the start of a text. -/
def captureAt : List Char → Option (List Char)
  | '{' :: '{' :: text =>
      let name := text.takeWhile (· ≠ '}')
      if name ≠ [] ∧ ['}', '}'] <+: text.dropWhile (· ≠ '}') then some name else none
  | _ => none

/-- The name in the first match. -/
def captures : List Char → Option (List Char)
  | [] => none
  | c :: text =>
      match captureAt (c :: text) with
      | some name => some name
      | none => captures text

def validateNoUnresolvedAliases (sql : List Char) : Except SynError Unit :=
  match captures sql with
  | none => .ok ()
  | some name =>
      .error (aliasError ("Unresolved alias: \x7b\x7b " ++ String.ofList name ++ " \x7d\x7d"))

namespace AliasManager

/-- The result of the loop; `none` would be a loop that is still running when
every alias has been put in once. -/
def substituteAliases {m : AliasManager} (it : m.Iteration) (sql : List Char) :
    Option (Except SynError (List Char)) :=
  match aliasRounds it.order (it.order.length + 1) ⟨sql, [], false⟩ with
  | none => none
  | some (.error err) => some (.error err.1)
  | some (.ok st) => some ((validateNoUnresolvedAliases st.result).map fun _ => st.result)

/-! ### Injection -/

def escapeContent (content : List Char) : List Char :=
  Text.replace [';'] ['\\', ';'] (Text.replace ['"'] ['\\', '"'] content)

def unescapeContent (escaped : List Char) : List Char :=
  Text.replace ['\\', ';'] [';'] (Text.replace ['\\', '"'] ['"'] escaped)

def serializeForInjection {m : AliasManager} (it : m.Iteration) : List Char :=
  if m.aliases.isEmpty then []
  else [';'].intercalate (it.order.map fun entry => entry.1 ++ '=' :: escapeContent entry.2)

def deserializePair (manager : AliasManager) (pair : List Char) : Except SynError AliasManager :=
  let pair := Text.trim isWhitespace pair
  if pair.isEmpty then .ok manager
  else
    match Text.splitOnce '=' pair with
    | none =>
        .error (aliasError ("Invalid alias format in injection: '" ++ String.ofList pair ++ "'"))
    | some (name, escaped) =>
        .ok (manager.addAlias (Text.trim isWhitespace name) (unescapeContent escaped))

def deserializeFromInjection (serialized : List Char) : Except SynError AliasManager :=
  if (Text.trim isWhitespace serialized).isEmpty then .ok .new
  else (serialized.splitOn ';').foldlM deserializePair .new

end AliasManager

end SqlxData.Macros
