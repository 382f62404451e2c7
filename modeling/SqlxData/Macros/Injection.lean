import SqlxData.Macros.AliasSystem

/-!
The injected attributes. Aliases and scopes of a trait are written into one
text that its methods read back. The quotes of a content survive the trip; the
separators of the format are escaped by the writer but cut before the reader
takes the escapes away.
-/

namespace SqlxData.Macros

/-! ### Writing and reading of scopes -/

def ScopeTarget.text : ScopeTarget → String
  | .select => "select"
  | .from => "from"
  | .join => "join"
  | .where => "where"
  | .groupBy => "group_by"
  | .having => "having"
  | .orderBy => "order_by"

/-- No other letter than the ASCII ones has one of these as its lower case. -/
def ScopeTarget.fromString (s : List Char) : Except SynError ScopeTarget :=
  let lower := String.ofList (s.map Char.toLower)
  if lower = "select" then .ok .select
  else if lower = "from" then .ok .from
  else if lower = "join" then .ok .join
  else if lower = "where" then .ok .where
  else if lower = "group_by" ∨ lower = "groupby" then .ok .groupBy
  else if lower = "having" then .ok .having
  else if lower = "order_by" ∨ lower = "orderby" then .ok .orderBy
  else
    .error (synError ("Invalid scope target: '" ++ String.ofList s ++
      "'. Valid targets: select, from, join, where, group_by, having, order_by"))

namespace ScopeManager

/-- One order of all scopes. -/
structure Order (m : ScopeManager) where
  order : List ScopeDefinition
  perm : order.Perm m.scopes

def serializeScope (definition : ScopeDefinition) : List Char :=
  definition.name.toList ++ '=' :: (AliasManager.escapeContent definition.sql.toList ++
    ':' :: definition.target.text.toList)

def serializeForInjection {m : ScopeManager} (it : m.Order) : List Char :=
  if m.scopes.isEmpty && m.ignoredScopes.isEmpty then []
  else
    ['|'].intercalate
      ((if m.scopes.isEmpty then []
        else ["scopes:".toList ++ [';'].intercalate (it.order.map serializeScope)]) ++
      if m.ignoredScopes.isEmpty then []
      else ["ignore:".toList ++ [','].intercalate (m.ignoredScopes.map String.toList)])

def deserializeScope (manager : ScopeManager) (scopeEntry : List Char) :
    Except SynError ScopeManager :=
  match Text.splitOnce '=' scopeEntry with
  | none => .ok manager
  | some (scopeName, sqlAndTarget) =>
      match Text.rsplitOnce ':' sqlAndTarget with
      | none =>
          .error (synError ("Invalid scope format, missing target: '" ++
            String.ofList scopeEntry ++ "'"))
      | some (sqlContent, targetStr) => do
          let target ← ScopeTarget.fromString targetStr
          .ok (manager.addScope (String.ofList (Text.trim isWhitespace scopeName))
            (String.ofList (AliasManager.unescapeContent sqlContent)) target)

def deserializeIgnored (manager : ScopeManager) (ignoredScope : List Char) : ScopeManager :=
  let scope := Text.trim isWhitespace ignoredScope
  if scope.isEmpty then manager else manager.addIgnoredScope (String.ofList scope)

def deserializePart (manager : ScopeManager) (part : List Char) : Except SynError ScopeManager :=
  match Text.splitOnce ':' part with
  | none =>
      .error (synError ("Invalid scope format in injection: '" ++ String.ofList part ++ "'"))
  | some (pre, data) =>
      if pre = "scopes".toList then (data.splitOn ';').foldlM deserializeScope manager
      else if pre = "ignore".toList then
        .ok ((data.splitOn ',').foldl deserializeIgnored manager)
      else
        .error (synError ("Invalid scope prefix in injection: '" ++ String.ofList pre ++ "'"))

def deserializeFromInjection (serialized : List Char) : Except SynError ScopeManager :=
  let serialized := Text.trim isWhitespace serialized
  if serialized.isEmpty then .ok .new
  else (serialized.splitOn '|').foldlM deserializePart .new

end ScopeManager

/-! ### Contents -/

namespace AliasManager

theorem not_mem_quoted {content : List Char} (h : ';' ∉ content) :
    ';' ∉ Text.replace ['"'] ['\\', '"'] content := by
  intro hmem
  obtain hmem | hmem := Text.mem_replace (by simp) hmem
  · exact h hmem
  · revert hmem
    decide

theorem escapeContent_of_no_semicolon {content : List Char} (h : ';' ∉ content) :
    escapeContent content = Text.replace ['"'] ['\\', '"'] content :=
  Text.replace_eq_self (Text.not_infix_of_not_mem List.mem_cons_self (not_mem_quoted h))

/-- Without a semicolon the escapes of the writer are undone. -/
theorem unescape_escape {content : List Char} (h : ';' ∉ content) :
    unescapeContent (escapeContent content) = content := by
  rw [escapeContent_of_no_semicolon h, unescapeContent, Text.replace_escaped (by decide)]
  exact Text.replace_eq_self (Text.not_infix_of_not_mem (by simp) h)

/-- The writer adds escapes only. -/
theorem mem_escapeContent {content : List Char} (hcontent : ';' ∉ content) {c : Char}
    (h : c ∈ escapeContent content) : c ∈ content ∨ c = '\\' ∨ c = '"' := by
  rw [escapeContent_of_no_semicolon hcontent] at h
  simpa using Text.mem_replace (by simp) h

/-- The reader of a part without semicolons adds nothing but quotes. -/
theorem mem_unescapeContent {part : List Char} (hpart : ';' ∉ part) {c : Char}
    (h : c ∈ unescapeContent part) : c ∈ part ∨ c = '"' := by
  have hquoted : ';' ∉ Text.replace ['\\', '"'] ['"'] part := by
    intro hmem
    obtain hmem | hmem := Text.mem_replace (by simp) hmem
    · exact hpart hmem
    · revert hmem
      decide
  rw [unescapeContent, Text.replace_eq_self (Text.not_infix_of_not_mem (by simp) hquoted)] at h
  simpa using Text.mem_replace (by simp) h

theorem getLast?_escapeContent (content : List Char) :
    (escapeContent content).getLast? = content.getLast? := by
  rw [← @Text.getLast?_replace Char _ ['"'] ['\\', '"'] (by simp) rfl content]
  exact @Text.getLast?_replace Char _ [';'] ['\\', ';'] (by simp) rfl _

theorem getLast?_unescapeContent (escaped : List Char) :
    (unescapeContent escaped).getLast? = escaped.getLast? := by
  rw [← @Text.getLast?_replace Char _ ['\\', '"'] ['"'] (by simp) rfl escaped]
  exact @Text.getLast?_replace Char _ ['\\', ';'] [';'] (by simp) rfl _

end AliasManager

/-! ### Aliases -/

namespace AliasManager

/-- What an entry is read back as: no semicolon, and nothing blank at the end. -/
def Survives (content : List Char) : Prop :=
  ';' ∉ content ∧ ∀ c ∈ content.getLast?, isWhitespace c = false

instance (content : List Char) : Decidable (Survives content) :=
  @instDecidableAnd _ _ inferInstance (Option.decidableForallMem (o := content.getLast?))

def pairOf (entry : List Char × List Char) : List Char := entry.1 ++ '=' :: escapeContent entry.2

theorem trim_pairOf {entry : List Char × List Char} (hname : IsName entry.1)
    (h : Survives entry.2) : Text.trim isWhitespace (pairOf entry) = pairOf entry := by
  obtain ⟨c, cs, hcs⟩ := List.exists_cons_of_ne_nil hname.1
  apply Text.trim_eq_self
  · intro d hd
    rw [pairOf, hcs, List.cons_append, List.head?_cons, Option.mem_def, Option.some_inj] at hd
    subst hd
    simpa using (hname.2 c (by rw [hcs]; exact List.mem_cons_self)).2
  · intro d hd
    rw [pairOf, List.getLast?_append, List.getLast?_cons, getLast?_escapeContent] at hd
    cases hlast : entry.2.getLast? with
    | none =>
        rw [hlast] at hd
        obtain rfl : '=' = d := by simpa using hd
        decide
    | some l =>
        rw [hlast] at hd
        obtain rfl : l = d := by simpa using hd
        simpa using h.2 l hlast

theorem deserializePair_pairOf (m : AliasManager) {entry : List Char × List Char}
    (hname : IsName entry.1) (h : Survives entry.2) :
    deserializePair m (pairOf entry) = .ok (m.addAlias entry.1 entry.2) := by
  have hcut : Text.splitOnce '=' (pairOf entry) = some (entry.1, escapeContent entry.2) :=
    Text.splitOnce_append (hname.not_mem (by decide)) _
  have hne : (pairOf entry).isEmpty = false := by simp [pairOf]
  simp only [deserializePair, trim_pairOf hname h, hne, Bool.false_eq_true, if_false, hcut,
    hname.tight.trim_eq, unescape_escape h.1]

/-- A new name is added behind the others. -/
theorem addAlias_aliases {m : AliasManager} {name content : List Char} (h : name ∉ m.names) :
    (m.addAlias name content).aliases = m.aliases ++ [(name, content)] := by
  have hkept : m.aliases.filter (·.1 ≠ name) = m.aliases := by
    rw [List.filter_eq_self]
    intro entry hentry
    simpa using fun heq : entry.1 = name => h (heq ▸ List.mem_map_of_mem hentry)
  exact congrArg (· ++ [(name, content)]) hkept

/-- Reading the pairs of entries with new names adds them in order. -/
theorem foldlM_deserializePair {entries : List (List Char × List Char)} (m : AliasManager)
    (hnodup : (m.names ++ entries.map Prod.fst).Nodup)
    (hentries : ∀ entry ∈ entries, IsName entry.1 ∧ Survives entry.2) :
    ∃ m', (entries.map pairOf).foldlM deserializePair m = .ok m' ∧
      m'.aliases = m.aliases ++ entries := by
  induction entries generalizing m with
  | nil => exact ⟨m, rfl, by simp⟩
  | cons entry entries ih =>
      obtain ⟨hname, hsurvives⟩ := hentries entry List.mem_cons_self
      have hnew : entry.1 ∉ m.names := by
        rw [List.map_cons, List.nodup_append] at hnodup
        exact fun hmem => hnodup.2.2 entry.1 hmem entry.1 List.mem_cons_self rfl
      have hadded : (m.addAlias entry.1 entry.2).aliases = m.aliases ++ [entry] :=
        addAlias_aliases hnew
      obtain ⟨m', hrun, hm'⟩ := ih (m.addAlias entry.1 entry.2)
        (by simpa [names, hadded] using hnodup)
        (fun e he => hentries e (List.mem_cons_of_mem entry he))
      refine ⟨m', ?_, by rw [hm', hadded]; simp⟩
      rw [List.map_cons, List.foldlM_cons, deserializePair_pairOf m hname hsurvives]
      exact hrun

/-- What is read survives. -/
theorem deserializePair_survives {m m' : AliasManager} {pair : List Char} (hpair : ';' ∉ pair)
    (h : deserializePair m pair = .ok m') (hm : ∀ entry ∈ m.aliases, Survives entry.2) :
    ∀ entry ∈ m'.aliases, Survives entry.2 := by
  simp only [deserializePair] at h
  split_ifs at h with hempty
  · cases h
    exact hm
  · split at h
    · cases h
    · rename_i name escaped hcut
      cases h
      have htrimmed := Text.eq_of_splitOnce hcut
      have hescaped : ';' ∉ escaped := by
        intro hmem
        apply hpair (Text.trim_subset isWhitespace pair _)
        rw [htrimmed]
        exact List.mem_append_right name (List.mem_cons_of_mem '=' hmem)
      have hlast : ∀ c ∈ escaped.getLast?, isWhitespace c = false := by
        intro c hc
        have hend := Text.getLast?_trim isWhitespace pair c
        rw [htrimmed, List.getLast?_append, List.getLast?_cons, hc] at hend
        simpa using hend
      intro entry hentry
      obtain hentry | hentry := List.mem_append.mp hentry
      · exact hm entry (List.mem_of_mem_filter hentry)
      · obtain rfl := List.mem_singleton.mp hentry
        constructor
        · intro hmem
          obtain hmem | hmem := mem_unescapeContent hescaped hmem
          · exact hescaped hmem
          · revert hmem
            decide
        · intro c hc
          rw [getLast?_unescapeContent] at hc
          exact hlast c hc

/-- The escaped semicolon is cut like any other. -/
theorem alias_semicolon_lost :
    ¬∀ (m : AliasManager) (it : m.Iteration), (∀ name ∈ m.names, IsName name) →
      ∃ m', deserializeFromInjection (serializeForInjection it) = .ok m' ∧
        m'.aliases.Perm m.aliases := by
  intro h
  obtain ⟨m', hread, -⟩ := h (new.addAlias ['a'] ['x', ';', 'y']) ⟨_, .refl _⟩ (by decide)
  cases hread

/-- The injected text is read back as the same aliases exactly when every
content survives. -/
theorem alias_injection_iff (m : AliasManager) (hnames : ∀ name ∈ m.names, IsName name)
    (it : m.Iteration) :
    (∃ m', deserializeFromInjection (serializeForInjection it) = .ok m' ∧
        m'.aliases.Perm m.aliases) ↔
      ∀ entry ∈ m.aliases, Survives entry.2 := by
  constructor
  · rintro ⟨m', hread, hperm⟩ entry hentry
    have hsurvive : ∀ entry ∈ m'.aliases, Survives entry.2 := by
      unfold deserializeFromInjection at hread
      split_ifs at hread
      · cases hread
        intro entry hentry
        cases hentry
      · exact Core.foldlM_keeps (fun m => ∀ entry ∈ m.aliases, Survives entry.2)
          (fun _ _ _ hpair hstep => deserializePair_survives (Text.not_mem_of_mem_splitOn hpair)
            hstep) (fun entry hentry => by cases hentry) hread
    exact hsurvive entry (hperm.mem_iff.mpr hentry)
  · intro hsurvive
    by_cases hempty : m.aliases = []
    · exact ⟨.new, by simp [serializeForInjection, hempty, deserializeFromInjection, Text.trim],
        by simp [new, hempty]⟩
    · have hentries : ∀ entry ∈ it.order, IsName entry.1 ∧ Survives entry.2 := by
        intro entry hentry
        have hmem := it.perm.mem_iff.mp hentry
        exact ⟨hnames _ (List.mem_map_of_mem hmem), hsurvive entry hmem⟩
      obtain ⟨m', hrun, hm'⟩ := foldlM_deserializePair .new
        (by simpa [names, new] using (it.perm.map Prod.fst).nodup_iff.mpr m.nodup) hentries
      refine ⟨m', ?_, by rw [hm']; exact it.perm⟩
      have hne : it.order.map pairOf ≠ [] := by
        intro h
        rw [List.map_eq_nil_iff] at h
        exact hempty (by simpa [h] using it.perm.symm)
      have hpairs : ∀ pair ∈ it.order.map pairOf, ';' ∉ pair := by
        rw [List.forall_mem_map]
        intro entry hentry hmem
        obtain ⟨hname, hcontent⟩ := hentries entry hentry
        simp only [pairOf, List.mem_append, List.mem_cons] at hmem
        obtain hmem | hmem | hmem := hmem
        · exact hname.not_mem (by decide) hmem
        · revert hmem
          decide
        · obtain hmem | hmem | hmem := mem_escapeContent hcontent.1 hmem
          · exact hcontent.1 hmem
          · revert hmem
            decide
          · revert hmem
            decide
      have hserial : serializeForInjection it = [';'].intercalate (it.order.map pairOf) := by
        rw [serializeForInjection, if_neg (by simpa using hempty)]
        rfl
      have hsplit : (serializeForInjection it).splitOn ';' = it.order.map pairOf := by
        rw [hserial, List.splitOn_intercalate ';' hpairs hne]
      have hwritten : Text.trim isWhitespace (serializeForInjection it) ≠ [] := by
        obtain ⟨pair, pairs, hcons⟩ := List.exists_cons_of_ne_nil hne
        obtain ⟨entry, hentry, rfl⟩ :=
          List.mem_map.mp (hcons ▸ List.mem_cons_self : pair ∈ it.order.map pairOf)
        apply @Text.trim_ne_nil Char isWhitespace _ '=' _ (by decide)
        rw [hserial, hcons]
        exact Text.mem_intercalate List.mem_cons_self (by simp [pairOf])
      rw [deserializeFromInjection, if_neg (by simpa using hwritten), hsplit]
      exact hrun

theorem alias_injection_kept :
    ∃ m', deserializeFromInjection
        (@serializeForInjection (new.addAlias ['a'] ['x', '"', '|', '\\']) ⟨_, .refl _⟩) = .ok m' ∧
      m'.aliases.Perm [(['a'], ['x', '"', '|', '\\'])] :=
  (alias_injection_iff _ (by decide) ⟨_, .refl _⟩).mpr (by decide)

end AliasManager

/-! ### Scopes -/

namespace ScopeManager

open AliasManager (unescape_escape mem_escapeContent mem_unescapeContent
  escapeContent unescapeContent)

/-- What an entry is read back as: neither of the two outer separators. -/
def Survives (sql : List Char) : Prop := ';' ∉ sql ∧ '|' ∉ sql

instance (sql : List Char) : Decidable (Survives sql) := inferInstanceAs (Decidable (_ ∧ _))

theorem fromString_text (target : ScopeTarget) :
    ScopeTarget.fromString target.text.toList = .ok target := by
  cases target <;> rfl

theorem not_mem_text (target : ScopeTarget) {c : Char} (hc : c ∈ outsideNames) :
    c ∉ target.text.toList := by
  have hall : (outsideNames.all fun c => decide (c ∉ target.text.toList)) = true := by
    cases target <;> rfl
  exact of_decide_eq_true (List.all_eq_true.mp hall c hc)

theorem tight_text (target : ScopeTarget) : Text.Tight isWhitespace target.text.toList := by
  cases target <;> exact Text.Tight.of_ends rfl rfl rfl rfl

theorem deserializeScope_serializeScope (m : ScopeManager) {d : ScopeDefinition}
    (hname : IsName d.name.toList) (h : ';' ∉ d.sql.toList) :
    deserializeScope m (serializeScope d) = .ok (m.addScope d.name d.sql d.target) := by
  have hcut : Text.splitOnce '=' (serializeScope d) =
      some (d.name.toList, escapeContent d.sql.toList ++ ':' :: d.target.text.toList) :=
    Text.splitOnce_append (hname.not_mem (by decide)) _
  have htarget : Text.rsplitOnce ':' (escapeContent d.sql.toList ++ ':' :: d.target.text.toList) =
      some (escapeContent d.sql.toList, d.target.text.toList) :=
    Text.rsplitOnce_append (not_mem_text d.target (by decide)) _
  simp only [deserializeScope, hcut, htarget, fromString_text, hname.tight.trim_eq,
    unescape_escape h, String.ofList_toList]
  rfl

/-- A new name is added behind the others. -/
theorem addScope_scopes {m : ScopeManager} {scopeName sql : String} {target : ScopeTarget}
    (h : scopeName ∉ m.scopes.map ScopeDefinition.name) :
    (m.addScope scopeName sql target).scopes = m.scopes ++ [⟨scopeName, sql, target⟩] := by
  have hkept : m.scopes.filter (·.name ≠ scopeName) = m.scopes := by
    rw [List.filter_eq_self]
    intro d hd
    simpa using fun heq : d.name = scopeName => h (heq ▸ List.mem_map_of_mem hd)
  exact congrArg (· ++ [(⟨scopeName, sql, target⟩ : ScopeDefinition)]) hkept

/-- Reading the entries of scopes with new names adds them in order. -/
theorem foldlM_deserializeScope {scopes : List ScopeDefinition} (m : ScopeManager)
    (hnodup : ((m.scopes ++ scopes).map ScopeDefinition.name).Nodup)
    (hscopes : ∀ d ∈ scopes, IsName d.name.toList ∧ ';' ∉ d.sql.toList) :
    ∃ m', (scopes.map serializeScope).foldlM deserializeScope m = .ok m' ∧
      m'.scopes = m.scopes ++ scopes ∧ m'.ignoredScopes = m.ignoredScopes := by
  induction scopes generalizing m with
  | nil => exact ⟨m, rfl, by simp, rfl⟩
  | cons d scopes ih =>
      obtain ⟨hname, hsql⟩ := hscopes d List.mem_cons_self
      have hnew : d.name ∉ m.scopes.map ScopeDefinition.name := by
        rw [List.map_append, List.map_cons, List.nodup_append] at hnodup
        exact fun hmem => hnodup.2.2 d.name hmem d.name List.mem_cons_self rfl
      have hadded : (m.addScope d.name d.sql d.target).scopes = m.scopes ++ [d] :=
        addScope_scopes hnew
      obtain ⟨m', hrun, hm', hignored⟩ := ih (m.addScope d.name d.sql d.target)
        (by simpa [hadded] using hnodup)
        (fun e he => hscopes e (List.mem_cons_of_mem d he))
      refine ⟨m', ?_, by rw [hm', hadded]; simp, hignored⟩
      rw [List.map_cons, List.foldlM_cons, deserializeScope_serializeScope m hname hsql]
      exact hrun

theorem deserializeIgnored_scopes (m : ScopeManager) (ignoredScope : List Char) :
    (deserializeIgnored m ignoredScope).scopes = m.scopes := by
  simp only [deserializeIgnored]
  split_ifs <;> rfl

theorem foldl_deserializeIgnored_scopes (m : ScopeManager) (ignored : List (List Char)) :
    (ignored.foldl deserializeIgnored m).scopes = m.scopes := by
  induction ignored generalizing m with
  | nil => rfl
  | cons name ignored ih => rw [List.foldl_cons, ih, deserializeIgnored_scopes]

theorem foldl_deserializeIgnored {ignored : List String} (m : ScopeManager)
    (h : ∀ name ∈ ignored, IsName name.toList) :
    ((ignored.map String.toList).foldl deserializeIgnored m).scopes = m.scopes ∧
      ((ignored.map String.toList).foldl deserializeIgnored m).ignoredScopes =
        m.ignoredScopes ++ ignored := by
  induction ignored generalizing m with
  | nil => simp
  | cons name ignored ih =>
      have hname := h name List.mem_cons_self
      have hread : deserializeIgnored m name.toList = m.addIgnoredScope name := by
        simp [deserializeIgnored, hname.tight.trim_eq, hname.1]
      rw [List.map_cons, List.foldl_cons, hread]
      obtain ⟨hscopes, hignored⟩ :=
        ih (m.addIgnoredScope name) fun n hn => h n (List.mem_cons_of_mem name hn)
      exact ⟨hscopes, by rw [hignored]; simp [addIgnoredScope]⟩

def scopesPart (scopes : List ScopeDefinition) : List Char :=
  "scopes:".toList ++ [';'].intercalate (scopes.map serializeScope)

def ignorePart (ignored : List String) : List Char :=
  "ignore:".toList ++ [','].intercalate (ignored.map String.toList)

def scopeParts (scopes : List ScopeDefinition) : List (List Char) :=
  if scopes.isEmpty then [] else [scopesPart scopes]

def ignoreParts (ignored : List String) : List (List Char) :=
  if ignored.isEmpty then [] else [ignorePart ignored]

theorem eq_of_mem_scopeParts {scopes : List ScopeDefinition} {part : List Char}
    (h : part ∈ scopeParts scopes) : part = scopesPart scopes := by
  unfold scopeParts at h
  split_ifs at h
  · cases h
  · exact List.mem_singleton.mp h

theorem eq_of_mem_ignoreParts {ignored : List String} {part : List Char}
    (h : part ∈ ignoreParts ignored) : part = ignorePart ignored := by
  unfold ignoreParts at h
  split_ifs at h
  · cases h
  · exact List.mem_singleton.mp h

theorem deserializePart_scopes (m : ScopeManager) (data : List Char) :
    deserializePart m ("scopes:".toList ++ data) =
      (data.splitOn ';').foldlM deserializeScope m := by
  have hcut : Text.splitOnce ':' ("scopes:".toList ++ data) = some ("scopes".toList, data) :=
    @Text.splitOnce_append Char _ ':' "scopes".toList (by decide) data
  simp only [deserializePart, hcut, if_true]

theorem deserializePart_ignore (m : ScopeManager) (data : List Char) :
    deserializePart m ("ignore:".toList ++ data) =
      .ok ((data.splitOn ',').foldl deserializeIgnored m) := by
  have hcut : Text.splitOnce ':' ("ignore:".toList ++ data) = some ("ignore".toList, data) :=
    @Text.splitOnce_append Char _ ':' "ignore".toList (by decide) data
  have hne : "ignore".toList ≠ "scopes".toList := by decide
  simp only [deserializePart, hcut, if_neg hne, if_true]

theorem not_mem_serializeScope {d : ScopeDefinition} (hname : IsName d.name.toList)
    (h : Survives d.sql.toList) {sep : Char} (hsep : sep = ';' ∨ sep = '|') :
    sep ∉ serializeScope d := by
  intro hmem
  have houtside : sep ∈ outsideNames := by obtain rfl | rfl := hsep <;> decide
  simp only [serializeScope, List.mem_append, List.mem_cons] at hmem
  obtain hmem | rfl | hmem | rfl | hmem := hmem
  · exact hname.not_mem houtside hmem
  · simp at hsep
  · obtain hmem | rfl | rfl := mem_escapeContent h.1 hmem
    · obtain rfl | rfl := hsep
      · exact h.1 hmem
      · exact h.2 hmem
    · simp at hsep
    · simp at hsep
  · simp at hsep
  · exact not_mem_text d.target houtside hmem

theorem tight_serializeScope {d : ScopeDefinition} (hname : IsName d.name.toList) :
    Text.Tight isWhitespace (serializeScope d) := by
  have h := hname.tight.append ('=' :: (escapeContent d.sql.toList ++ [':']))
    (tight_text d.target)
  simpa [serializeScope] using h

/-- Neither an entry nor an ignored name is empty or has blanks around it. -/
theorem tight_prefixed {word : String} {sep : List Char} {entries : List (List Char)}
    (hword : Text.Tight isWhitespace word.toList) (hne : entries ≠ [])
    (h : ∀ entry ∈ entries, Text.Tight isWhitespace entry) :
    Text.Tight isWhitespace (word.toList ++ sep.intercalate entries) := by
  have hentries : Text.Tight isWhitespace (sep.intercalate entries) :=
    Text.tight_intercalate hne h
  have happend := hword.append [] hentries
  rwa [List.append_nil] at happend

/-- The part of the scopes is read back. -/
theorem read_scopeParts {scopes : List ScopeDefinition}
    (hnodup : (scopes.map ScopeDefinition.name).Nodup)
    (hnames : ∀ d ∈ scopes, IsName d.name.toList) (h : ∀ d ∈ scopes, Survives d.sql.toList) :
    ∃ m, (scopeParts scopes).foldlM deserializePart .new = .ok m ∧
      m.scopes = scopes ∧ m.ignoredScopes = [] := by
  by_cases hempty : scopes = []
  · subst hempty
    exact ⟨.new, rfl, rfl, rfl⟩
  · have hsplit : ([';'].intercalate (scopes.map serializeScope)).splitOn ';' =
        scopes.map serializeScope := by
      apply List.splitOn_intercalate ';'
      · rw [List.forall_mem_map]
        exact fun d hd => not_mem_serializeScope (hnames d hd) (h d hd) (.inl rfl)
      · simpa using hempty
    obtain ⟨m, hrun, hscopes, hignored⟩ := foldlM_deserializeScope .new
      (by simpa [new] using hnodup) fun d hd => ⟨hnames d hd, (h d hd).1⟩
    refine ⟨m, ?_, by simpa [new] using hscopes, hignored⟩
    have hpart : scopeParts scopes = [scopesPart scopes] := if_neg (by simpa using hempty)
    have hread : deserializePart .new (scopesPart scopes) = .ok m := by
      unfold scopesPart
      rw [deserializePart_scopes, hsplit, hrun]
    rw [hpart, List.foldlM_cons, hread]
    rfl

/-- The part of the ignored scopes is read back. -/
theorem read_ignoreParts {ignored : List String} (m : ScopeManager)
    (hnames : ∀ name ∈ ignored, IsName name.toList) :
    ∃ m', (ignoreParts ignored).foldlM deserializePart m = .ok m' ∧
      m'.scopes = m.scopes ∧ m'.ignoredScopes = m.ignoredScopes ++ ignored := by
  by_cases hempty : ignored = []
  · subst hempty
    exact ⟨m, rfl, rfl, by simp⟩
  · have hsplit : ([','].intercalate (ignored.map String.toList)).splitOn ',' =
        ignored.map String.toList := by
      apply List.splitOn_intercalate ','
      · rw [List.forall_mem_map]
        exact fun name hname => (hnames name hname).not_mem (by decide)
      · simpa using hempty
    obtain ⟨hscopes, hignored⟩ := foldl_deserializeIgnored m hnames
    refine ⟨_, ?_, hscopes, hignored⟩
    have hpart : ignoreParts ignored = [ignorePart ignored] := if_neg (by simpa using hempty)
    have hread : deserializePart m (ignorePart ignored) =
        .ok ((ignored.map String.toList).foldl deserializeIgnored m) := by
      unfold ignorePart
      rw [deserializePart_ignore, hsplit]
    rw [hpart, List.foldlM_cons, hread]
    rfl

theorem serializeForInjection_eq {m : ScopeManager} (it : m.Order) :
    serializeForInjection it =
      ['|'].intercalate (scopeParts it.order ++ ignoreParts m.ignoredScopes) := by
  have hempty : it.order.isEmpty = m.scopes.isEmpty := by
    rw [Bool.eq_iff_iff, List.isEmpty_iff, List.isEmpty_iff]
    constructor
    · intro h
      simpa [h] using it.perm.symm
    · intro h
      simpa [h] using it.perm
  unfold serializeForInjection scopeParts ignoreParts
  rw [hempty]
  cases hs : m.scopes.isEmpty <;> cases hi : m.ignoredScopes.isEmpty <;> rfl

theorem not_mem_parts {scopes : List ScopeDefinition} {ignored : List String}
    (hscopes : ∀ d ∈ scopes, IsName d.name.toList ∧ Survives d.sql.toList)
    (hignored : ∀ name ∈ ignored, IsName name.toList) :
    ∀ part ∈ scopeParts scopes ++ ignoreParts ignored, '|' ∉ part := by
  intro part hpart hmem
  obtain hpart | hpart := List.mem_append.mp hpart
  · obtain rfl := eq_of_mem_scopeParts hpart
    unfold scopesPart at hmem
    obtain hmem | hmem := List.mem_append.mp hmem
    · revert hmem
      decide
    · obtain hmem | ⟨entry, hentry, hmem⟩ := Text.mem_or_mem_of_mem_intercalate hmem
      · simp at hmem
      · obtain ⟨d, hd, rfl⟩ := List.mem_map.mp hentry
        exact not_mem_serializeScope (hscopes d hd).1 (hscopes d hd).2 (.inr rfl) hmem
  · obtain rfl := eq_of_mem_ignoreParts hpart
    unfold ignorePart at hmem
    obtain hmem | hmem := List.mem_append.mp hmem
    · revert hmem
      decide
    · obtain hmem | ⟨entry, hentry, hmem⟩ := Text.mem_or_mem_of_mem_intercalate hmem
      · simp at hmem
      · obtain ⟨name, hname, rfl⟩ := List.mem_map.mp hentry
        exact (hignored name hname).not_mem (by decide) hmem

theorem tight_parts {scopes : List ScopeDefinition} {ignored : List String}
    (hscopes : ∀ d ∈ scopes, IsName d.name.toList)
    (hignored : ∀ name ∈ ignored, IsName name.toList) :
    ∀ part ∈ scopeParts scopes ++ ignoreParts ignored, Text.Tight isWhitespace part := by
  intro part hpart
  obtain hpart | hpart := List.mem_append.mp hpart
  · obtain rfl := eq_of_mem_scopeParts hpart
    apply @tight_prefixed "scopes:" _ _ (Text.Tight.of_ends rfl rfl rfl rfl)
    · intro h
      rw [List.map_eq_nil_iff] at h
      simp [scopeParts, h] at hpart
    · rw [List.forall_mem_map]
      exact fun d hd => tight_serializeScope (hscopes d hd)
  · obtain rfl := eq_of_mem_ignoreParts hpart
    apply @tight_prefixed "ignore:" _ _ (Text.Tight.of_ends rfl rfl rfl rfl)
    · intro h
      rw [List.map_eq_nil_iff] at h
      simp [ignoreParts, h] at hpart
    · rw [List.forall_mem_map]
      exact fun name hname => (hignored name hname).tight

/-- What is read survives. -/
theorem deserializeScope_survives {m m' : ScopeManager} {scopeEntry : List Char}
    (hentry : ';' ∉ scopeEntry ∧ '|' ∉ scopeEntry) (h : deserializeScope m scopeEntry = .ok m')
    (hm : ∀ d ∈ m.scopes, Survives d.sql.toList) : ∀ d ∈ m'.scopes, Survives d.sql.toList := by
  unfold deserializeScope at h
  split at h
  · cases h
    exact hm
  · rename_i scopeName sqlAndTarget hcut
    split at h
    · cases h
    · rename_i sqlContent targetStr htarget
      obtain ⟨target, -, h⟩ := Core.exists_of_bind_eq_ok h
      cases h
      have hsub : ∀ c ∈ sqlContent, c ∈ scopeEntry := by
        intro c hc
        rw [Text.eq_of_splitOnce hcut, Text.eq_of_rsplitOnce htarget]
        simp [hc]
      intro d hd
      obtain hd | hd := List.mem_append.mp hd
      · exact hm d (List.mem_of_mem_filter hd)
      · obtain rfl := List.mem_singleton.mp hd
        have hsql : ∀ c, c ≠ '"' → c ∉ scopeEntry → c ∉ unescapeContent sqlContent := by
          intro c hquote hc hmem
          obtain hmem | hmem := mem_unescapeContent (fun h => hentry.1 (hsub _ h)) hmem
          · exact hc (hsub c hmem)
          · exact hquote hmem
        rw [Survives, String.toList_ofList]
        exact ⟨hsql ';' (by decide) hentry.1, hsql '|' (by decide) hentry.2⟩

theorem deserializePart_survives {m m' : ScopeManager} {part : List Char} (hpart : '|' ∉ part)
    (h : deserializePart m part = .ok m') (hm : ∀ d ∈ m.scopes, Survives d.sql.toList) :
    ∀ d ∈ m'.scopes, Survives d.sql.toList := by
  unfold deserializePart at h
  split at h
  · cases h
  · rename_i pre data hcut
    have hdata : '|' ∉ data := by
      intro hmem
      apply hpart
      rw [Text.eq_of_splitOnce hcut]
      exact List.mem_append_right pre (List.mem_cons_of_mem ':' hmem)
    split_ifs at h
    · apply Core.foldlM_keeps (fun m => ∀ d ∈ m.scopes, Survives d.sql.toList) _ hm h
      intro m scopeEntry m' hentry hstep
      refine deserializeScope_survives ⟨Text.not_mem_of_mem_splitOn hentry, ?_⟩ hstep
      exact fun hmem => hdata (Text.mem_of_mem_splitOn hentry hmem)
    · cases h
      rw [foldl_deserializeIgnored_scopes]
      exact hm

/-- The SQL ends at its first semicolon, and with it the target is lost. -/
theorem scope_semicolon_lost :
    ¬∀ (m : ScopeManager) (it : m.Order), (∀ d ∈ m.scopes, IsName d.name.toList) →
      (∀ name ∈ m.ignoredScopes, IsName name.toList) →
      ∃ m', deserializeFromInjection (serializeForInjection it) = .ok m' ∧
        m'.scopes.Perm m.scopes ∧ m'.ignoredScopes = m.ignoredScopes := by
  intro h
  obtain ⟨m', hread, -⟩ := h (new.addScope "kept" "note <> ';'" .where) ⟨_, .refl _⟩
    (by decide) (by decide)
  cases hread

/-- The injected text is read back as the same scopes and ignored scopes
exactly when every SQL survives. -/
theorem scope_injection_iff (m : ScopeManager) (hnames : ∀ d ∈ m.scopes, IsName d.name.toList)
    (hignored : ∀ name ∈ m.ignoredScopes, IsName name.toList) (it : m.Order) :
    (∃ m', deserializeFromInjection (serializeForInjection it) = .ok m' ∧
        m'.scopes.Perm m.scopes ∧ m'.ignoredScopes = m.ignoredScopes) ↔
      ∀ d ∈ m.scopes, Survives d.sql.toList := by
  have hnamesOrder : ∀ d ∈ it.order, IsName d.name.toList :=
    fun d hd => hnames d (it.perm.mem_iff.mp hd)
  constructor
  · rintro ⟨m', hread, hperm, -⟩ d hd
    have hsurvive : ∀ d ∈ m'.scopes, Survives d.sql.toList := by
      simp only [deserializeFromInjection] at hread
      split_ifs at hread
      · cases hread
        intro d hd
        cases hd
      · exact Core.foldlM_keeps (fun m => ∀ d ∈ m.scopes, Survives d.sql.toList)
          (fun _ _ _ hpart hstep => deserializePart_survives (Text.not_mem_of_mem_splitOn hpart)
            hstep) (fun d hd => by cases hd) hread
    exact hsurvive d (hperm.mem_iff.mpr hd)
  · intro hsurvive
    have hsurviveOrder : ∀ d ∈ it.order, Survives d.sql.toList :=
      fun d hd => hsurvive d (it.perm.mem_iff.mp hd)
    obtain ⟨m₁, hrun₁, hscopes₁, hignored₁⟩ := read_scopeParts
      ((it.perm.map ScopeDefinition.name).nodup_iff.mpr m.nodup) hnamesOrder hsurviveOrder
    obtain ⟨m₂, hrun₂, hscopes₂, hignored₂⟩ := read_ignoreParts m₁ hignored
    have hrun : (scopeParts it.order ++ ignoreParts m.ignoredScopes).foldlM deserializePart .new =
        .ok m₂ := by
      rw [List.foldlM_append, hrun₁]
      exact hrun₂
    refine ⟨m₂, ?_, by rw [hscopes₂, hscopes₁]; exact it.perm, by rw [hignored₂, hignored₁]; rfl⟩
    have htight := tight_parts hnamesOrder hignored
    have hbars := not_mem_parts (fun d hd => ⟨hnamesOrder d hd, hsurviveOrder d hd⟩) hignored
    rw [serializeForInjection_eq]
    generalize scopeParts it.order ++ ignoreParts m.ignoredScopes = parts at hrun htight hbars ⊢
    by_cases hparts : parts = []
    · subst hparts
      exact hrun
    · have hwhole : Text.Tight isWhitespace (['|'].intercalate parts) :=
        Text.tight_intercalate hparts htight
      simp only [deserializeFromInjection, hwhole.trim_eq]
      rw [if_neg (by simpa using hwhole.ne_nil), List.splitOn_intercalate '|' hbars hparts]
      exact hrun

theorem scope_injection_kept :
    ∃ m', deserializeFromInjection
        (@serializeForInjection ((new.addScope "kept" "note <> ':='" .where).addIgnoredScope "old")
          ⟨_, .refl _⟩) = .ok m' ∧
      m'.scopes.Perm [⟨"kept", "note <> ':='", .where⟩] ∧ m'.ignoredScopes = ["old"] :=
  (scope_injection_iff _ (by decide) (by decide) ⟨_, .refl _⟩).mpr (by decide)

end ScopeManager

end SqlxData.Macros
