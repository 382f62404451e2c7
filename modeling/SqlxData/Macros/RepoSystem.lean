import SqlxData.Macros.AliasExpansion
import SqlxData.Macros.NamedParams
import SqlxData.Macros.ScopeAttributes

/-!
`#[repo]`. What a trait declares once is written onto its `#[dml]` methods, as
hidden attributes that the macro of each method reads back. The maps have no
order of their own: the trait writes its aliases and scopes in one order, and a
method goes through what it has read in another.
-/

namespace SqlxData.Macros

open SqlxData.Sqlparser SqlxData.Core SqlxData.Dynamic

/-! ### Attributes -/

/-- The value of a `name = value` attribute, or an expression among the
arguments of a macro. -/
inductive MetaValue
  | str (value : List Char)
  | bool (value : Bool)
  | other

/-- An attribute of a trait or of a method. -/
inductive ItemAttribute
  | list (attr : Attribute)
  | nameValue (ident : String) (value : MetaValue)
  | path (ident : String)
  /-- With arguments that only its own macro reads, like those of `dml`. -/
  | tokens (ident : String) (args : List Char)

namespace ItemAttribute

def ident : ItemAttribute → String
  | .list attr => attr.path
  | .nameValue name _ => name
  | .path name => name
  | .tokens name _ => name

/-- The attribute for `parse_nested_meta`, which wants parentheses. -/
def nested : ItemAttribute → Attribute
  | .list attr => attr
  | .nameValue name _ =>
      ⟨name, [.malformed (synError ("expected parentheses: #[" ++ name ++ "(...)]"))]⟩
  | .path name =>
      ⟨name, [.malformed (synError
        ("expected attribute arguments in parentheses: #[" ++ name ++ "(...)]"))]⟩
  | .tokens name _ => ⟨name, [.malformed (synError "expected identifier")]⟩

/-- The string of a hidden attribute. -/
def hiddenText (name : String) : ItemAttribute → Option (List Char)
  | .nameValue ident (.str value) => if ident = name then some value else none
  | _ => none

end ItemAttribute

namespace AliasManager

def parseAliasMeta (manager : AliasManager) : NestedMeta → Except SynError AliasManager
  | .malformed err => .error err
  | .path _ => .error (synError "Expected alias = \"content\" format")
  | .nameValue aliasName content => .ok (manager.addAlias aliasName.toList content.toList)

def parseAliasAttribute (manager : AliasManager) (attr : Attribute) :
    Except SynError AliasManager :=
  attr.items.foldlM parseAliasMeta manager

def parseFromAttributes (attrs : List Attribute) : Except SynError AliasManager :=
  attrs.foldlM (fun manager attr =>
    if attr.path = "alias" then manager.parseAliasAttribute attr else .ok manager) new

def hasAliases (m : AliasManager) : Bool := !m.aliases.isEmpty

theorem substituteAliases_isSome {m : AliasManager} (it : m.Iteration) (sql : List Char) :
    (substituteAliases it sql).isSome := by
  obtain ⟨err, h⟩ | ⟨s, h, -⟩ := substituteAliases_cases it sql <;> rw [h] <;> rfl

/-- The result of the loop, which always stops. -/
def substituted {m : AliasManager} (it : m.Iteration) (sql : List Char) :
    Except SynError (List Char) :=
  (substituteAliases it sql).get (substituteAliases_isSome it sql)

/-- The aliases of the first hidden attribute. -/
def extractFromMethodAttributes (attrs : List ItemAttribute) : Except SynError AliasManager :=
  match attrs.findSome? (ItemAttribute.hiddenText "sqlx_data_aliases") with
  | some serialized => deserializeFromInjection serialized
  | none => .ok new

end AliasManager

namespace ScopeManager

/-- The step of `substitute_scope_aliases`: a scope with the aliases put into
its SQL. -/
def resolveScope {aliases : AliasManager} (it : aliases.Iteration) (resolved : ScopeManager)
    (definition : ScopeDefinition) : Except SynError ScopeManager := do
  let resolvedSql ← AliasManager.substituted it definition.sql.toList
  .ok (resolved.addScope definition.name (String.ofList resolvedSql) definition.target)

/-- All scopes are resolved, the ignored ones too. -/
def substituteScopeAliases {m : ScopeManager} (order : m.Order) {aliases : AliasManager}
    (it : aliases.Iteration) : Except SynError ScopeManager :=
  order.order.foldlM (resolveScope it) { new with ignoredScopes := m.ignoredScopes }

/-- The scopes of the first hidden attribute. -/
def extractFromMethodAttributes (attrs : List ItemAttribute) : Except SynError ScopeManager :=
  match attrs.findSome? (ItemAttribute.hiddenText "sqlx_data_scopes") with
  | some serialized => deserializeFromInjection serialized
  | none => .ok new

end ScopeManager

/-! ### The trait -/

/-- A method with the SQL of its `#[dml]`. -/
structure TraitItemFn where
  attrs : List ItemAttribute
  sql : List Char
  parameters : MethodParameters

inductive TraitItem
  | fn (method : TraitItemFn)
  | other (tokens : String)

structure ItemTrait where
  attrs : List ItemAttribute
  items : List TraitItem

/-- An expression among the arguments of a macro. -/
inductive MacroExpr
  | lit (value : MetaValue)
  | path (ident : String)
  | assign (left right : MacroExpr)
  | other

namespace RepoProcessor

/-- The first `instrument` counts; what is not an assignment is passed over. -/
def parseInstrumentFlag : List MacroExpr → Except SynError Bool
  | [] => .ok false
  | .assign (.path name) right :: args =>
      if name = "instrument" then
        match right with
        | .lit (.bool value) => .ok value
        | .lit _ => .error (synError "instrument parameter must be true or false")
        | _ => .error (synError "instrument parameter must be a boolean literal")
      else parseInstrumentFlag args
  | .assign _ _ :: _ => .error (synError "Invalid parameter name")
  | _ :: args => parseInstrumentFlag args

/-- The orders in which the scopes are gone through for one method. -/
structure ScopeOrders where
  resolved : (m : ScopeManager) → m.Order
  written : (m : ScopeManager) → m.Order

variable {aliasManager : AliasManager}

/-- The scopes of the trait, with those the method ignores. -/
def finalScopes (scopeManager : ScopeManager) (method : TraitItemFn) :
    Except SynError ScopeManager := do
  let methodScopeManager ←
    ScopeManager.parseFromAttributes [] (method.attrs.map ItemAttribute.nested)
  .ok (methodScopeManager.ignoredScopes.foldl ScopeManager.addIgnoredScope scopeManager)

/-- The attributes that are pushed behind those of a method. -/
def injectedAttributes (it : aliasManager.Iteration) (orders : ScopeOrders)
    (finalScopeManager : ScopeManager) (traitInstrument : Bool) : List ItemAttribute :=
  (if aliasManager.hasAliases then
    [.nameValue "sqlx_data_aliases" (.str (AliasManager.serializeForInjection it))]
  else []) ++
  (if finalScopeManager.hasActiveScopes then
    [.nameValue "sqlx_data_scopes"
      (.str (ScopeManager.serializeForInjection (orders.written finalScopeManager)))]
  else []) ++
  if traitInstrument then [.nameValue "sqlx_data_trait_instrument" (.bool true)] else []

def processDmlMethod (it : aliasManager.Iteration) (orders : ScopeOrders)
    (scopeManager : ScopeManager) (traitInstrument : Bool) (method : TraitItemFn) :
    Except SynError TraitItemFn := do
  let finalScopeManager ← finalScopes scopeManager method
  let finalScopeManager ←
    ScopeManager.substituteScopeAliases (orders.resolved finalScopeManager) it
  .ok { method with
    attrs := (method.attrs ++ injectedAttributes it orders finalScopeManager traitInstrument).filter
      (·.ident ≠ "scope_ignore") }

def hasDmlAttr (method : TraitItemFn) : Bool := method.attrs.any (·.ident = "dml")

def processItem (it : aliasManager.Iteration) (orders : ScopeOrders) (scopeManager : ScopeManager)
    (traitInstrument : Bool) : TraitItem → Except SynError TraitItem
  | .fn method =>
      if hasDmlAttr method then
        (processDmlMethod it orders scopeManager traitInstrument method).map .fn
      else .ok (.fn method)
  | .other tokens => .ok (.other tokens)

/-- Each method has orders of its own. -/
def injectAttributesIntoMethods (it : aliasManager.Iteration) (scopeManager : ScopeManager)
    (traitInstrument : Bool) :
    (ℕ → ScopeOrders) → List TraitItem → Except SynError (List TraitItem)
  | _, [] => .ok []
  | orders, item :: items => do
      let item ← processItem it (orders 0) scopeManager traitInstrument item
      let items ← injectAttributesIntoMethods it scopeManager traitInstrument
        (fun i => orders (i + 1)) items
      .ok (item :: items)

def getPoolMethod : TraitItem :=
  .other ("fn get_pool(&self) -> &sqlx_data::Pool\x7b unimplemented!(\"Implement get_pool() to " ++
    "use methods without pool parameters, or pass pool explicitly via method parameters\") \x7d")

def processTraitWithArgs (aliasOrder : (m : AliasManager) → m.Iteration)
    (orders : ℕ → ScopeOrders) (inputTrait : ItemTrait) (args : List MacroExpr) :
    Except SynError ItemTrait := do
  let traitInstrument ← parseInstrumentFlag args
  let attrs := inputTrait.attrs.map ItemAttribute.nested
  let aliasManager ← AliasManager.parseFromAttributes attrs
  let scopeManager ← ScopeManager.parseFromAttributes attrs []
  let items ← injectAttributesIntoMethods (aliasOrder aliasManager) scopeManager traitInstrument
    orders inputTrait.items
  .ok {
    attrs := inputTrait.attrs.filter fun attr => attr.ident ≠ "alias" ∧ attr.ident ≠ "scope"
    items := items ++ [getPoolMethod] }

end RepoProcessor

/-! ### The method -/

namespace DmlParser

def extractTraitInstrumentFlag (attrs : List ItemAttribute) : Bool :=
  attrs.any fun
    | .nameValue ident (.bool value) => ident = "sqlx_data_trait_instrument" && value
    | _ => false

def applyAliasesIfNeeded {m : AliasManager} (it : m.Iteration) (sql : List Char) :
    Except SynError (List Char) :=
  if m.hasAliases then AliasManager.substituted it sql else .ok sql

def applyScopesIfNeeded (parser : Parser) (D : Display) {m : ScopeManager} (it : m.Iteration)
    (sql : List Char) : Except SynError (List Char) :=
  if m.hasActiveScopes then applyScopesToSql parser D m it sql else .ok sql

/-- The three steps from the SQL that is written to the SQL that is sent. -/
def resolveSql (parser : Parser) (D : Display) (backend : Backend) {aliasManager : AliasManager}
    (aliasOrder : aliasManager.Iteration) {scopeManager : ScopeManager}
    (scopeOrder : scopeManager.Iteration) {parameters : MethodParameters}
    (parameterOrder : parameters.Order) (sql : List Char) : Except SynError (List Char) := do
  let sql ← applyAliasesIfNeeded aliasOrder sql
  let sql ← applyScopesIfNeeded parser D scopeOrder sql
  convertNamedToPositionalInSql backend parameters parameterOrder sql

/-- The SQL of a method, read with what is hidden in its attributes. -/
def sqlContent (parser : Parser) (D : Display) (backend : Backend) (method : TraitItemFn)
    (aliasOrder : (m : AliasManager) → m.Iteration) (scopeOrder : (m : ScopeManager) → m.Iteration)
    (parameterOrder : method.parameters.Order) : Except SynError (List Char) := do
  let aliasManager ← AliasManager.extractFromMethodAttributes method.attrs
  let scopeManager ← ScopeManager.extractFromMethodAttributes method.attrs
  resolveSql parser D backend (aliasOrder aliasManager) (scopeOrder scopeManager) parameterOrder
    method.sql

end DmlParser

/-! ### What is read back -/

namespace AliasManager

theorem not_mem_pairOf {entry : List Char × List Char} (hname : IsName entry.1)
    (h : Survives entry.2) : ';' ∉ pairOf entry := by
  intro hmem
  simp only [pairOf, List.mem_append, List.mem_cons] at hmem
  obtain hmem | heq | hmem := hmem
  · exact hname.not_mem (by decide) hmem
  · exact absurd heq (by decide)
  · obtain hmem | heq | heq := mem_escapeContent h.1 hmem
    · exact h.1 hmem
    · exact absurd heq (by decide)
    · exact absurd heq (by decide)

theorem serializeForInjection_eq {m : AliasManager} (it : m.Iteration) (h : m.aliases ≠ []) :
    serializeForInjection it = [';'].intercalate (it.order.map pairOf) :=
  if_neg (by simpa using h)

/-- Contents that survive are read back as they were. -/
theorem read_serialized {m : AliasManager} (it : m.Iteration)
    (hnames : ∀ name ∈ m.names, IsName name) (h : ∀ entry ∈ m.aliases, Survives entry.2)
    (hsome : m.aliases ≠ []) :
    ∃ m', deserializeFromInjection (serializeForInjection it) = .ok m' ∧
      m'.aliases.Perm m.aliases := by
  have hentries : ∀ entry ∈ it.order, IsName entry.1 ∧ Survives entry.2 := by
    intro entry hentry
    have hmem := it.perm.mem_iff.mp hentry
    exact ⟨hnames _ (List.mem_map_of_mem hmem), h entry hmem⟩
  obtain ⟨m', hrun, hm'⟩ := foldlM_deserializePair .new
    (by simpa [names, new] using (it.perm.map Prod.fst).nodup_iff.mpr m.nodup) hentries
  refine ⟨m', ?_, by rw [hm']; exact it.perm⟩
  obtain ⟨entry, order, horder⟩ : ∃ entry order, it.order = entry :: order :=
    List.exists_cons_of_ne_nil fun hnil => hsome (by simpa [hnil] using it.perm.symm)
  have hpairs : ∀ pair ∈ it.order.map pairOf, ';' ∉ pair :=
    List.forall_mem_map.mpr fun e he => not_mem_pairOf (hentries e he).1 (hentries e he).2
  have hwritten : Text.trim isWhitespace (serializeForInjection it) ≠ [] := by
    apply @Text.trim_ne_nil Char isWhitespace _ '=' _ (by decide)
    rw [serializeForInjection_eq it hsome, horder]
    exact Text.mem_intercalate List.mem_cons_self (by simp [pairOf])
  rw [deserializeFromInjection, if_neg (by simpa using hwritten), serializeForInjection_eq it hsome,
    List.splitOn_intercalate ';' hpairs (by simp [horder])]
  exact hrun

end AliasManager

namespace ScopeManager

/-- SQL that survives is read back as it was. -/
theorem read_serialized {m : ScopeManager} (it : m.Order)
    (hnames : ∀ d ∈ m.scopes, IsName d.name.toList)
    (hignored : ∀ name ∈ m.ignoredScopes, IsName name.toList)
    (h : ∀ d ∈ m.scopes, Survives d.sql.toList) (hsome : m.scopes ≠ []) :
    ∃ m', deserializeFromInjection (serializeForInjection it) = .ok m' ∧
      m'.scopes.Perm m.scopes ∧ m'.ignoredScopes = m.ignoredScopes := by
  have hscopes : ∀ d ∈ it.order, IsName d.name.toList ∧ Survives d.sql.toList := fun d hd =>
    ⟨hnames d (it.perm.mem_iff.mp hd), h d (it.perm.mem_iff.mp hd)⟩
  obtain ⟨m₁, hrun₁, hscopes₁, hignored₁⟩ := read_scopeParts
    ((it.perm.map ScopeDefinition.name).nodup_iff.mpr m.nodup) (fun d hd => (hscopes d hd).1)
    fun d hd => (hscopes d hd).2
  obtain ⟨m₂, hrun₂, hscopes₂, hignored₂⟩ := read_ignoreParts m₁ hignored
  refine ⟨m₂, ?_, by rw [hscopes₂, hscopes₁]; exact it.perm, by rw [hignored₂, hignored₁]; rfl⟩
  have hparts : scopeParts it.order ++ ignoreParts m.ignoredScopes ≠ [] := by
    have horder : it.order ≠ [] := fun hnil => hsome (by simpa [hnil] using it.perm.symm)
    simp [scopeParts, horder]
  have hwhole := @Text.tight_intercalate Char isWhitespace ['|'] _ hparts
    (tight_parts (fun d hd => (hscopes d hd).1) hignored)
  rw [serializeForInjection_eq]
  simp only [deserializeFromInjection, hwhole.trim_eq]
  rw [if_neg (by simpa using hwhole.ne_nil),
    List.splitOn_intercalate '|' (not_mem_parts hscopes hignored) hparts, List.foldlM_append, hrun₁]
  exact hrun₂

/-! ### The scopes of a method -/

variable {aliases : AliasManager} {it : aliases.Iteration}

/-- `e` is the scope `d` with the aliases put into its SQL. -/
structure Resolves (it : aliases.Iteration) (d e : ScopeDefinition) : Prop where
  name : e.name = d.name
  target : e.target = d.target
  sql : AliasManager.substituted it d.sql.toList = .ok e.sql.toList

theorem resolveScope_eq_ok {m m' : ScopeManager} {d : ScopeDefinition}
    (h : resolveScope it m d = .ok m') :
    ∃ e, Resolves it d e ∧ m' = m.addScope e.name e.sql e.target := by
  obtain ⟨sql, hsql, h⟩ := exists_of_bind_eq_ok h
  cases h
  exact ⟨⟨d.name, String.ofList sql, d.target⟩, ⟨rfl, rfl, by simpa using hsql⟩, rfl⟩

/-- Under new names, a resolved scope is added for each scope, and nothing else. -/
theorem foldlM_resolveScope {ds : List ScopeDefinition} {m m' : ScopeManager}
    (hnodup : ((m.scopes ++ ds).map ScopeDefinition.name).Nodup)
    (h : ds.foldlM (resolveScope it) m = .ok m') :
    m'.ignoredScopes = m.ignoredScopes ∧ ∃ es, m'.scopes = m.scopes ++ es ∧
      (∀ d ∈ ds, ∃ e ∈ es, Resolves it d e) ∧ ∀ e ∈ es, ∃ d ∈ ds, Resolves it d e := by
  induction ds generalizing m with
  | nil =>
      cases h
      exact ⟨rfl, [], by simp, by simp, by simp⟩
  | cons d ds ih =>
      rw [List.foldlM_cons] at h
      obtain ⟨m₁, hstep, h⟩ := exists_of_bind_eq_ok h
      obtain ⟨e, he, rfl⟩ := resolveScope_eq_ok hstep
      have hnew : e.name ∉ m.scopes.map ScopeDefinition.name := by
        rw [List.map_append, List.map_cons, List.nodup_append] at hnodup
        rw [he.name]
        exact fun hmem => hnodup.2.2 d.name hmem d.name List.mem_cons_self rfl
      have hadded : (m.addScope e.name e.sql e.target).scopes = m.scopes ++ [e] :=
        addScope_scopes hnew
      obtain ⟨hignored, es, hscopes, hforth, hback⟩ := ih
        (by rw [hadded]; simpa [he.name] using hnodup) h
      refine ⟨hignored, e :: es, by rw [hscopes, hadded]; simp, ?_, ?_⟩
      · intro c hc
        obtain rfl | hc := List.mem_cons.mp hc
        · exact ⟨e, List.mem_cons_self, he⟩
        · obtain ⟨f, hf, hcf⟩ := hforth c hc
          exact ⟨f, List.mem_cons_of_mem e hf, hcf⟩
      · intro f hf
        obtain rfl | hf := List.mem_cons.mp hf
        · exact ⟨d, List.mem_cons_self, he⟩
        · obtain ⟨c, hc, hcf⟩ := hback f hf
          exact ⟨c, List.mem_cons_of_mem d hc, hcf⟩

/-- The same for a whole map, in any order. -/
theorem substituteScopeAliases_eq_ok {m m' : ScopeManager} {order : m.Order}
    (h : substituteScopeAliases order it = .ok m') :
    m'.ignoredScopes = m.ignoredScopes ∧
      (∀ d ∈ m.scopes, ∃ e ∈ m'.scopes, Resolves it d e) ∧
      ∀ e ∈ m'.scopes, ∃ d ∈ m.scopes, Resolves it d e := by
  obtain ⟨hignored, es, hscopes, hforth, hback⟩ := foldlM_resolveScope
    (by simpa [new] using (order.perm.map ScopeDefinition.name).nodup_iff.mpr m.nodup) h
  obtain rfl : m'.scopes = es := by simpa [new] using hscopes
  exact ⟨hignored, fun d hd => hforth d (order.perm.mem_iff.mpr hd), fun e he =>
    (hback e he).imp fun d hd => ⟨order.perm.mem_iff.mp hd.1, hd.2⟩⟩

theorem Resolves.unique {d e e' : ScopeDefinition} (h : Resolves it d e) (h' : Resolves it d e') :
    e = e' := by
  have hsql : e.sql.toList = e'.sql.toList := Except.ok.inj (h.sql.symm.trans h'.sql)
  cases e
  cases e'
  cases h.name.trans h'.name.symm
  cases h.target.trans h'.target.symm
  cases String.toList_injective hsql
  rfl

/-- The active scopes of `m'` are the scopes of `m` without the ignored ones,
with the aliases put in. -/
def LeftOf (it : aliases.Iteration) (m : ScopeManager) (ignored : List String)
    (m' : ScopeManager) : Prop :=
  ∀ e, e ∈ m'.getActiveScopes ↔ ∃ d ∈ m.scopes, d.name ∉ ignored ∧ Resolves it d e

theorem substituteScopeAliases_leftOf {m m' : ScopeManager} {order : m.Order}
    (h : substituteScopeAliases order it = .ok m') : LeftOf it m m.ignoredScopes m' := by
  obtain ⟨hignored, hforth, hback⟩ := substituteScopeAliases_eq_ok h
  intro e
  simp only [getActiveScopes, List.mem_filter, decide_eq_true_eq, hignored]
  constructor
  · rintro ⟨he, hactive⟩
    obtain ⟨d, hd, hde⟩ := hback e he
    exact ⟨d, hd, hde.name ▸ hactive, hde⟩
  · rintro ⟨d, hd, hactive, hde⟩
    obtain ⟨e', he', hde'⟩ := hforth d hd
    obtain rfl := hde.unique hde'
    exact ⟨he', hde.name ▸ hactive⟩

theorem foldl_addIgnoredScope (m : ScopeManager) (names : List String) :
    names.foldl addIgnoredScope m = m.addIgnored names := by
  have h := foldl_addIgnored (fun name => [name]) names m
  rwa [List.flatMap_singleton'] at h

theorem getActiveScopes_perm {m m' : ScopeManager} (h : m'.scopes.Perm m.scopes)
    (hignored : m'.ignoredScopes = m.ignoredScopes) :
    m'.getActiveScopes.Perm m.getActiveScopes := by
  unfold getActiveScopes
  rw [hignored]
  exact h.filter _

end ScopeManager

namespace RepoProcessor

open ItemAttribute

/-- The names the macros write to each other. -/
def hiddenNames : List String :=
  ["sqlx_data_aliases", "sqlx_data_scopes", "sqlx_data_trait_instrument"]

/-- A method as it is written: nothing is hidden in its attributes yet, and what
it ignores are names. -/
structure Written (method : TraitItemFn) : Prop where
  notHidden : ∀ attr ∈ method.attrs, attr.ident ∉ hiddenNames
  ignored : ∀ name ∈ ignoredNames (method.attrs.map nested), IsName name.toList

theorem finalScopes_eq_ok {m m' : ScopeManager} {method : TraitItemFn}
    (h : finalScopes m method = .ok m') :
    m' = m.addIgnored (ignoredNames (method.attrs.map nested)) := by
  obtain ⟨methodManager, hparse, h⟩ := exists_of_bind_eq_ok h
  have haccepted : AttributesAccepted [] (method.attrs.map nested) := by
    by_contra hrefused
    obtain ⟨err, herr⟩ := ScopeManager.parseFromAttributes_error hrefused
    rw [hparse] at herr
    cases herr
  rw [ScopeManager.parseFromAttributes_ok haccepted] at hparse
  cases hparse
  cases h
  exact ScopeManager.foldl_addIgnoredScope m _

/-! ### The injected attributes -/

section Injected

variable {aliasManager : AliasManager} {it : aliasManager.Iteration} {orders : ScopeOrders}
  {scopes : ScopeManager} {traitInstrument : Bool}

theorem ident_injected : ∀ attr ∈ injectedAttributes it orders scopes traitInstrument,
    attr.ident ∈ hiddenNames := by
  intro attr hattr
  simp only [injectedAttributes, List.mem_append, List.mem_ite_nil_right, List.mem_singleton]
    at hattr
  obtain (⟨-, rfl⟩ | ⟨-, rfl⟩) | ⟨-, rfl⟩ := hattr <;> simp [ItemAttribute.ident, hiddenNames]

theorem filter_append_injected (attrs : List ItemAttribute) :
    (attrs ++ injectedAttributes it orders scopes traitInstrument).filter
        (·.ident ≠ "scope_ignore") =
      attrs.filter (·.ident ≠ "scope_ignore") ++
        injectedAttributes it orders scopes traitInstrument := by
  rw [List.filter_append]
  congr 1
  rw [List.filter_eq_self]
  intro attr hattr
  have hname := ident_injected attr hattr
  rw [decide_eq_true_eq]
  rintro heq
  rw [heq] at hname
  exact absurd hname (by decide)

theorem filter_injected :
    (injectedAttributes it orders scopes traitInstrument).filter (·.ident ∉ hiddenNames) = [] := by
  rw [List.filter_eq_nil_iff]
  intro attr hattr
  simpa using ident_injected attr hattr

theorem findSome?_injected_aliases :
    (injectedAttributes it orders scopes traitInstrument).findSome?
        (hiddenText "sqlx_data_aliases") =
      if aliasManager.hasAliases then some (AliasManager.serializeForInjection it) else none := by
  unfold injectedAttributes
  cases aliasManager.hasAliases <;> cases scopes.hasActiveScopes <;> cases traitInstrument <;>
    simp [hiddenText]

theorem findSome?_injected_scopes :
    (injectedAttributes it orders scopes traitInstrument).findSome?
        (hiddenText "sqlx_data_scopes") =
      if scopes.hasActiveScopes then
        some (ScopeManager.serializeForInjection (orders.written scopes))
      else none := by
  unfold injectedAttributes
  cases aliasManager.hasAliases <;> cases scopes.hasActiveScopes <;> cases traitInstrument <;>
    simp [hiddenText]

theorem instrument_injected :
    DmlParser.extractTraitInstrumentFlag
      (injectedAttributes it orders scopes traitInstrument) = traitInstrument := by
  unfold injectedAttributes DmlParser.extractTraitInstrumentFlag
  cases aliasManager.hasAliases <;> cases scopes.hasActiveScopes <;> cases traitInstrument <;>
    simp

end Injected

theorem hiddenText_eq_none {name : String} (hname : name ∈ hiddenNames) {attr : ItemAttribute}
    (h : attr.ident ∉ hiddenNames) : hiddenText name attr = none := by
  obtain _ | ⟨ident, _ | _ | _⟩ | _ | _ := attr
  · rfl
  · exact if_neg fun heq : ident = name => h (heq.symm ▸ hname : ident ∈ hiddenNames)
  all_goals rfl

theorem findSome?_hiddenText {name : String} (hname : name ∈ hiddenNames)
    {attrs : List ItemAttribute} (h : ∀ attr ∈ attrs, attr.ident ∉ hiddenNames)
    (injected : List ItemAttribute) :
    (attrs.filter (·.ident ≠ "scope_ignore") ++ injected).findSome? (hiddenText name) =
      injected.findSome? (hiddenText name) := by
  have hnone : (attrs.filter (·.ident ≠ "scope_ignore")).findSome? (hiddenText name) = none :=
    List.findSome?_eq_none_iff.mpr fun attr hattr =>
      hiddenText_eq_none hname (h attr (List.mem_of_mem_filter hattr))
  rw [List.findSome?_append, hnone]
  rfl

theorem instrument_notHidden {attrs : List ItemAttribute}
    (h : ∀ attr ∈ attrs, attr.ident ∉ hiddenNames) (injected : List ItemAttribute) :
    DmlParser.extractTraitInstrumentFlag
        (attrs.filter (·.ident ≠ "scope_ignore") ++ injected) =
      DmlParser.extractTraitInstrumentFlag injected := by
  unfold DmlParser.extractTraitInstrumentFlag
  rw [List.any_append, Bool.or_eq_right_iff_imp]
  intro hflag
  obtain ⟨attr, hattr, hflag⟩ := List.any_eq_true.mp hflag
  have hident := h attr (List.mem_of_mem_filter hattr)
  obtain _ | ⟨ident, _ | _ | _⟩ | _ | _ := attr
  · cases hflag
  · cases hflag
  · simp only [Bool.and_eq_true, decide_eq_true_eq] at hflag
    exact absurd (hflag.1 ▸ (by decide : "sqlx_data_trait_instrument" ∈ hiddenNames)) hident
  all_goals cases hflag

/-! ### What a method is left with -/

variable {aliasManager : AliasManager} (it : aliasManager.Iteration)
  (scopeManager : ScopeManager) (traitInstrument : Bool)

/-- The texts `dml` can make of a method are those that come of the aliases of
the trait and of the scopes of the trait the method does not ignore. Otherwise
the method is as it was. -/
structure Conveyed (method method' : TraitItemFn) : Prop where
  sql : method'.sql = method.sql
  parameters : method'.parameters = method.parameters
  attrs : method'.attrs.filter (·.ident ∉ hiddenNames) =
    method.attrs.filter (·.ident ≠ "scope_ignore")
  instrument : DmlParser.extractTraitInstrumentFlag method'.attrs = traitInstrument
  texts : ∃ scopes, ScopeManager.LeftOf it scopeManager
      (ignoredNames (method.attrs.map nested)) scopes ∧
    ∀ parser D backend result,
      (∃ aliasOrder scopeOrder parameterOrder, DmlParser.sqlContent parser D backend method'
          aliasOrder scopeOrder parameterOrder = result) ↔
        ∃ (aliasOrder : aliasManager.Iteration) (scopeOrder : scopes.Iteration)
          (parameterOrder : method.parameters.Order),
          DmlParser.resolveSql parser D backend aliasOrder scopeOrder parameterOrder method.sql =
            result

variable {it scopeManager traitInstrument}

/-- Maps with the same entries come to the same texts. -/
theorem resolveSql_of_perm {parser : Parser} {D : Display} {backend : Backend}
    {m m' : AliasManager} {s s' : ScopeManager} {parameters : MethodParameters}
    {parameterOrder : parameters.Order} {sql : List Char} (haliases : m'.aliases.Perm m.aliases)
    (hscopes : s'.getActiveScopes.Perm s.getActiveScopes) (aliasOrder : m'.Iteration)
    (scopeOrder : s'.Iteration) :
    ∃ (aliasOrder' : m.Iteration) (scopeOrder' : s.Iteration),
      DmlParser.resolveSql parser D backend aliasOrder' scopeOrder' parameterOrder sql =
        DmlParser.resolveSql parser D backend aliasOrder scopeOrder parameterOrder sql := by
  have hhas : m.hasAliases = m'.hasAliases := by
    simp [AliasManager.hasAliases, haliases.isEmpty_eq]
  have hactive : s.hasActiveScopes = s'.hasActiveScopes := by
    simp [ScopeManager.hasActiveScopes, hscopes.isEmpty_eq]
  refine ⟨⟨aliasOrder.order, aliasOrder.perm.trans haliases⟩,
    ⟨scopeOrder.order, scopeOrder.perm.trans hscopes⟩, ?_⟩
  simp only [DmlParser.resolveSql, DmlParser.applyAliasesIfNeeded, DmlParser.applyScopesIfNeeded,
    applyScopesToSql, hhas, hactive]
  rfl

/-- The maps a method has read stand for all maps with the same entries. -/
theorem exists_sqlContent_iff {parser : Parser} {D : Display} {backend : Backend}
    (method : TraitItemFn) {m m' : AliasManager} {s s' : ScopeManager}
    (haliases : AliasManager.extractFromMethodAttributes method.attrs = .ok m')
    (hscopes : ScopeManager.extractFromMethodAttributes method.attrs = .ok s')
    (hmperm : m'.aliases.Perm m.aliases) (hsperm : s'.getActiveScopes.Perm s.getActiveScopes)
    {result : Except SynError (List Char)} :
    (∃ aliasOrder scopeOrder parameterOrder,
        DmlParser.sqlContent parser D backend method aliasOrder scopeOrder parameterOrder =
          result) ↔
      ∃ (aliasOrder : m.Iteration) (scopeOrder : s.Iteration)
        (parameterOrder : method.parameters.Order),
        DmlParser.resolveSql parser D backend aliasOrder scopeOrder parameterOrder method.sql =
          result := by
  classical
  have hcontent (aliasOrder scopeOrder parameterOrder) :
      DmlParser.sqlContent parser D backend method aliasOrder scopeOrder parameterOrder =
        DmlParser.resolveSql parser D backend (aliasOrder m') (scopeOrder s') parameterOrder
          method.sql := by
    unfold DmlParser.sqlContent
    rw [haliases, hscopes]
    rfl
  constructor
  · rintro ⟨aliasOrder, scopeOrder, parameterOrder, rfl⟩
    obtain ⟨aliasOrder', scopeOrder', heq⟩ :=
      resolveSql_of_perm hmperm hsperm (aliasOrder m') (scopeOrder s')
    exact ⟨aliasOrder', scopeOrder', parameterOrder, heq.trans (hcontent ..).symm⟩
  · rintro ⟨aliasOrder, scopeOrder, parameterOrder, rfl⟩
    obtain ⟨aliasOrder', scopeOrder', heq⟩ :=
      resolveSql_of_perm hmperm.symm hsperm.symm aliasOrder scopeOrder
    -- the maps that are read are the only ones whose order matters
    refine ⟨Function.update (fun m => ⟨m.aliases, .refl _⟩) m' aliasOrder',
      Function.update (fun s => ⟨s.getActiveScopes, .refl _⟩) s' scopeOrder', parameterOrder, ?_⟩
    rw [hcontent, Function.update_self, Function.update_self]
    exact heq

/-- What is declared on a trait can be written into an attribute and read back:
the aliases, and every scope after the aliases are put in. -/
structure Storable (it : aliasManager.Iteration) (scopeManager : ScopeManager) : Prop where
  aliasNames : ∀ name ∈ aliasManager.names, IsName name
  aliases : ∀ entry ∈ aliasManager.aliases, AliasManager.Survives entry.2
  scopeNames : ∀ d ∈ scopeManager.scopes, IsName d.name.toList
  scopes : ∀ d ∈ scopeManager.scopes, ∀ text,
    AliasManager.substituted it d.sql.toList = .ok text → ScopeManager.Survives text

/-- The aliases a method reads are those of the trait. -/
theorem read_aliases {orders : ScopeOrders} {scopes : ScopeManager} {attrs : List ItemAttribute}
    (h : Storable it scopeManager) (hattrs : ∀ attr ∈ attrs, attr.ident ∉ hiddenNames) :
    ∃ m', AliasManager.extractFromMethodAttributes (attrs.filter (·.ident ≠ "scope_ignore") ++
        injectedAttributes it orders scopes traitInstrument) = .ok m' ∧
      m'.aliases.Perm aliasManager.aliases := by
  rw [AliasManager.extractFromMethodAttributes, findSome?_hiddenText (by decide) hattrs,
    findSome?_injected_aliases]
  by_cases hsome : aliasManager.aliases = []
  · have hno : aliasManager.hasAliases = false := by simp [AliasManager.hasAliases, hsome]
    rw [hno]
    exact ⟨.new, rfl, by rw [hsome]; rfl⟩
  · have hyes : aliasManager.hasAliases = true := by simp [AliasManager.hasAliases, hsome]
    rw [hyes]
    exact AliasManager.read_serialized it h.aliasNames h.aliases hsome

/-- The active scopes a method reads are those that were written. -/
theorem read_scopes {orders : ScopeOrders} {scopes : ScopeManager} {attrs : List ItemAttribute}
    (hnames : ∀ d ∈ scopes.scopes, IsName d.name.toList)
    (hignored : ∀ name ∈ scopes.ignoredScopes, IsName name.toList)
    (hsurvives : ∀ d ∈ scopes.scopes, ScopeManager.Survives d.sql.toList)
    (hattrs : ∀ attr ∈ attrs, attr.ident ∉ hiddenNames) :
    ∃ s', ScopeManager.extractFromMethodAttributes (attrs.filter (·.ident ≠ "scope_ignore") ++
        injectedAttributes it orders scopes traitInstrument) = .ok s' ∧
      s'.getActiveScopes.Perm scopes.getActiveScopes := by
  rw [ScopeManager.extractFromMethodAttributes, findSome?_hiddenText (by decide) hattrs,
    findSome?_injected_scopes]
  cases hactive : scopes.hasActiveScopes with
  | false =>
      have hnone : scopes.getActiveScopes = [] := by
        simpa [ScopeManager.hasActiveScopes] using hactive
      exact ⟨.new, rfl, by rw [hnone]; rfl⟩
  | true =>
      have hsome : scopes.scopes ≠ [] := by
        rintro hnil
        simp [ScopeManager.hasActiveScopes, ScopeManager.getActiveScopes, hnil] at hactive
      obtain ⟨s', hread, hperm, heq⟩ :=
        ScopeManager.read_serialized (orders.written scopes) hnames hignored hsurvives hsome
      exact ⟨s', hread, ScopeManager.getActiveScopes_perm hperm heq⟩

/-- One method. -/
theorem processDmlMethod_conveyed {orders : ScopeOrders} {method method' : TraitItemFn}
    (hstorable : Storable it scopeManager) (hnone : scopeManager.ignoredScopes = [])
    (hwritten : Written method)
    (h : processDmlMethod it orders scopeManager traitInstrument method = .ok method') :
    Conveyed it scopeManager traitInstrument method method' := by
  obtain ⟨final, hfinal, hrest⟩ := exists_of_bind_eq_ok h
  obtain ⟨scopes, hscopes, hmethod⟩ := exists_of_bind_eq_ok hrest
  obtain rfl := finalScopes_eq_ok hfinal
  obtain rfl := Except.ok.inj hmethod
  obtain ⟨hignored, -, hback⟩ := ScopeManager.substituteScopeAliases_eq_ok hscopes
  have hleft := ScopeManager.substituteScopeAliases_leftOf hscopes
  simp only [ScopeManager.addIgnored, hnone, List.nil_append] at hignored hback hleft
  obtain ⟨m', hm', hmperm⟩ := @read_aliases _ it _ traitInstrument orders scopes _ hstorable
    hwritten.notHidden
  obtain ⟨s', hs', hsperm⟩ := @read_scopes _ it traitInstrument orders scopes method.attrs
    (fun e he => by
      obtain ⟨d, hd, hde⟩ := hback e he
      exact hde.name ▸ hstorable.scopeNames d hd)
    (hignored ▸ hwritten.ignored)
    (fun e he => by
      obtain ⟨d, hd, hde⟩ := hback e he
      exact hstorable.scopes d hd _ hde.sql) hwritten.notHidden
  refine ⟨rfl, rfl, ?_, ?_, scopes, hleft, fun parser D backend result => ?_⟩
  · rw [filter_append_injected, List.filter_append, filter_injected,
      List.append_nil, List.filter_eq_self]
    intro attr hattr
    simpa using hwritten.notHidden attr (List.mem_of_mem_filter hattr)
  · rw [filter_append_injected, instrument_notHidden hwritten.notHidden]
    exact instrument_injected
  · rw [← filter_append_injected] at hm' hs'
    exact exists_sqlContent_iff _ hm' hs' hmperm hsperm

/-! ### The trait as a whole -/

/-- A method of `dml` is conveyed, everything else stays. -/
inductive ItemConveyed (it : aliasManager.Iteration) (scopeManager : ScopeManager)
    (traitInstrument : Bool) : TraitItem → TraitItem → Prop
  | dml {method method' : TraitItemFn} (isDml : hasDmlAttr method = true)
      (conveyed : Conveyed it scopeManager traitInstrument method method') :
      ItemConveyed it scopeManager traitInstrument (.fn method) (.fn method')
  | other {item : TraitItem} (notDml : ∀ method, item = .fn method → hasDmlAttr method = false) :
      ItemConveyed it scopeManager traitInstrument item item

theorem processItem_conveyed {orders : ScopeOrders} {item item' : TraitItem}
    (hstorable : Storable it scopeManager) (hnone : scopeManager.ignoredScopes = [])
    (hwritten : ∀ method, item = .fn method → hasDmlAttr method = true → Written method)
    (h : processItem it orders scopeManager traitInstrument item = .ok item') :
    ItemConveyed it scopeManager traitInstrument item item' := by
  cases item with
  | other tokens =>
      cases h
      exact .other fun _ heq => by cases heq
  | fn method =>
      cases hdml : hasDmlAttr method with
      | false =>
          simp only [processItem, hdml, Bool.false_eq_true, if_false] at h
          cases h
          exact .other fun _ heq => by cases heq; exact hdml
      | true =>
          simp only [processItem, hdml, if_true] at h
          cases hmethod : processDmlMethod it orders scopeManager traitInstrument method with
          | error err =>
              rw [hmethod] at h
              cases h
          | ok method' =>
              rw [hmethod] at h
              cases h
              exact .dml hdml
                (processDmlMethod_conveyed hstorable hnone (hwritten method rfl hdml) hmethod)

theorem injectAttributesIntoMethods_conveyed {orders : ℕ → ScopeOrders}
    {items items' : List TraitItem} (hstorable : Storable it scopeManager)
    (hnone : scopeManager.ignoredScopes = [])
    (hwritten : ∀ method, .fn method ∈ items → hasDmlAttr method = true → Written method)
    (h : injectAttributesIntoMethods it scopeManager traitInstrument orders items = .ok items') :
    List.Forall₂ (ItemConveyed it scopeManager traitInstrument) items items' := by
  induction items generalizing orders items' with
  | nil =>
      cases h
      exact .nil
  | cons item items ih =>
      obtain ⟨item', hitem, hrest⟩ := exists_of_bind_eq_ok h
      obtain ⟨items₁, hitems, hlist⟩ := exists_of_bind_eq_ok hrest
      cases hlist
      refine .cons (processItem_conveyed hstorable hnone ?_ hitem) (ih ?_ hitems)
      · exact fun method heq => hwritten method (heq ▸ List.mem_cons_self)
      · exact fun method hmem => hwritten method (List.mem_cons_of_mem item hmem)

/-- A trait as it is written: the names in its attributes are identifiers. -/
structure TraitWritten (inputTrait : ItemTrait) : Prop where
  names : ∀ attr ∈ inputTrait.attrs.map nested, ∀ name value,
    .nameValue name value ∈ attr.items → IsName name.toList
  methods : ∀ method, .fn method ∈ inputTrait.items → hasDmlAttr method = true → Written method

theorem isName_of_parse_aliases {attrs : List Attribute} {m : AliasManager}
    (h : AliasManager.parseFromAttributes attrs = .ok m)
    (hnames : ∀ attr ∈ attrs, ∀ name value, .nameValue name value ∈ attr.items →
      IsName name.toList) :
    ∀ name ∈ m.names, IsName name := by
  refine foldlM_keeps (fun m : AliasManager => ∀ name ∈ m.names, IsName name) ?_ (by simp
    [AliasManager.names, AliasManager.new]) h
  intro m attr m' hattr hstep hm
  split_ifs at hstep with halias
  · refine foldlM_keeps (fun m : AliasManager => ∀ name ∈ m.names, IsName name) ?_ hm hstep
    intro m item m' hitem hstep hm
    cases item with
    | malformed err => cases hstep
    | path ident => cases hstep
    | nameValue aliasName content =>
        cases hstep
        intro name hname
        obtain ⟨entry, hentry, rfl⟩ := List.mem_map.mp hname
        obtain hentry | hentry := List.mem_append.mp hentry
        · exact hm _ (List.mem_map_of_mem (List.mem_of_mem_filter hentry))
        · obtain rfl := List.mem_singleton.mp hentry
          exact hnames attr hattr aliasName content hitem
  · cases hstep
    exact hm

theorem isName_of_parse_scopes {attrs : List Attribute} {m : ScopeManager}
    (h : ScopeManager.parseFromAttributes attrs [] = .ok m)
    (hnames : ∀ attr ∈ attrs, ∀ name value, .nameValue name value ∈ attr.items →
      IsName name.toList) :
    m.ignoredScopes = [] ∧ ∀ d ∈ m.scopes, IsName d.name.toList := by
  have haccepted : AttributesAccepted attrs [] := by
    by_contra hrefused
    obtain ⟨err, herr⟩ := ScopeManager.parseFromAttributes_error hrefused
    rw [h] at herr
    cases herr
  rw [ScopeManager.parseFromAttributes_ok haccepted] at h
  cases h
  refine ⟨by simp [ScopeManager.parsed, ScopeManager.addIgnored, ignoredNames, ignoreAttributes,
    ScopeManager.foldl_addDefinition_ignoredScopes, ScopeManager.new], fun d hd => ?_⟩
  obtain hd := (ScopeManager.mem_foldl_addDefinition hd).resolve_left List.not_mem_nil
  obtain ⟨attr, hattr, hlast⟩ := List.mem_filterMap.mp hd
  obtain ⟨pair, hpair, rfl⟩ := Option.map_eq_some_iff.mp hlast
  obtain ⟨item, hitem, hpair⟩ := List.mem_filterMap.mp (List.mem_of_getLast? hpair)
  cases item with
  | malformed err => cases hpair
  | path ident => cases hpair
  | nameValue key value =>
      simp only [NestedMeta.pair] at hpair
      split_ifs at hpair
      cases hpair
      exact hnames attr (List.mem_of_mem_filter hattr) key value hitem

/-- Neither an alias nor a scope of the trait holds a separator of the hidden
attributes, and no alias ends in white space, which is trimmed with its pair. -/
def ContentsSurvive (aliasOrder : (m : AliasManager) → m.Iteration) (inputTrait : ItemTrait) :
    Prop :=
  ∀ m s, AliasManager.parseFromAttributes (inputTrait.attrs.map nested) = .ok m →
    ScopeManager.parseFromAttributes (inputTrait.attrs.map nested) [] = .ok s →
    (∀ entry ∈ m.aliases, AliasManager.Survives entry.2) ∧
      ∀ d ∈ s.scopes, ∀ text, AliasManager.substituted (aliasOrder m) d.sql.toList = .ok text →
        ScopeManager.Survives text

/-- What a trait declares reaches the SQL of each of its methods as if it had
been applied there directly, and nothing else of the trait is changed. -/
theorem trait_declarations_reach_methods {aliasOrder : (m : AliasManager) → m.Iteration}
    {orders : ℕ → ScopeOrders} {inputTrait outputTrait : ItemTrait} {args : List MacroExpr}
    (hwritten : TraitWritten inputTrait) (hsurvive : ContentsSurvive aliasOrder inputTrait)
    (h : processTraitWithArgs aliasOrder orders inputTrait args = .ok outputTrait) :
    ∃ traitInstrument aliasManager scopeManager items,
      parseInstrumentFlag args = .ok traitInstrument ∧
      AliasManager.parseFromAttributes (inputTrait.attrs.map nested) = .ok aliasManager ∧
      ScopeManager.parseFromAttributes (inputTrait.attrs.map nested) [] = .ok scopeManager ∧
      outputTrait.attrs =
        inputTrait.attrs.filter (fun attr => attr.ident ≠ "alias" ∧ attr.ident ≠ "scope") ∧
      outputTrait.items = items ++ [getPoolMethod] ∧
      List.Forall₂ (ItemConveyed (aliasOrder aliasManager) scopeManager traitInstrument)
        inputTrait.items items := by
  obtain ⟨traitInstrument, hflag, hrest⟩ := exists_of_bind_eq_ok h
  obtain ⟨aliasManager, haliases, hrest₁⟩ := exists_of_bind_eq_ok hrest
  obtain ⟨scopeManager, hscopes, hrest₂⟩ := exists_of_bind_eq_ok hrest₁
  obtain ⟨items, hitems, htrait⟩ := exists_of_bind_eq_ok hrest₂
  obtain rfl := Except.ok.inj htrait
  obtain ⟨hcontents, hsql⟩ := hsurvive aliasManager scopeManager haliases hscopes
  obtain ⟨hnone, hscopeNames⟩ := isName_of_parse_scopes hscopes hwritten.names
  exact ⟨traitInstrument, aliasManager, scopeManager, items, hflag, haliases, hscopes, rfl, rfl,
    injectAttributesIntoMethods_conveyed
      ⟨isName_of_parse_aliases haliases hwritten.names, hcontents, hscopeNames, hsql⟩ hnone
      hwritten.methods hitems⟩

/-- One alias in a scope, and a method that ignores another scope. -/
def userTrait : ItemTrait where
  attrs := [.list ⟨"alias", [.nameValue "flag" "u.deleted"]⟩,
    .list ⟨"scope", [.nameValue "live" "{{flag}} = 0"]⟩,
    .list ⟨"scope", [.nameValue "tenant" "tenant_id = 1"]⟩]
  items := [.fn ⟨[.list ⟨"scope_ignore", [.path "tenant"]⟩, .path "dml"],
    "SELECT id FROM users u".toList, ⟨[], by decide⟩⟩]

def keptAliases (m : AliasManager) : m.Iteration := ⟨m.aliases, .refl _⟩

def keptScopes : ScopeOrders := ⟨fun m => ⟨m.scopes, .refl _⟩, fun m => ⟨m.scopes, .refl _⟩⟩

theorem userTrait_written : TraitWritten userTrait where
  names := by
    intro attr hattr name value hitem
    simp only [userTrait, List.map_cons, List.map_nil, nested, List.mem_cons, List.not_mem_nil,
      or_false] at hattr
    obtain rfl | rfl | rfl := hattr
    all_goals
      obtain ⟨rfl, -⟩ := NestedMeta.nameValue.inj (List.mem_singleton.mp hitem)
      decide
  methods := by
    intro method hmem _
    obtain rfl := TraitItem.fn.inj (List.mem_singleton.mp hmem)
    exact ⟨by decide, by decide⟩

theorem userTrait_survives : ContentsSurvive keptAliases userTrait := by
  intro m s hm hs
  obtain rfl := Except.ok.inj hm
  obtain rfl := Except.ok.inj hs
  refine ⟨by decide, fun d hd text htext => ?_⟩
  have hd : d ∈ [⟨"live", "{{flag}} = 0", .where⟩,
      ⟨"tenant", "tenant_id = 1", .where⟩] := hd
  simp only [List.mem_cons, List.not_mem_nil, or_false] at hd
  obtain rfl | rfl := hd
  all_goals
    obtain rfl := Except.ok.inj htext
    decide

theorem userTrait_processed :
    ∃ outputTrait, processTraitWithArgs keptAliases (fun _ => keptScopes) userTrait [] =
      .ok outputTrait := ⟨_, rfl⟩

theorem user_trait_declarations :
    ∃ (outputTrait : ItemTrait), ∃ traitInstrument aliasManager scopeManager items,
      parseInstrumentFlag [] = .ok traitInstrument ∧
      AliasManager.parseFromAttributes (userTrait.attrs.map nested) = .ok aliasManager ∧
      ScopeManager.parseFromAttributes (userTrait.attrs.map nested) [] = .ok scopeManager ∧
      outputTrait.attrs =
        userTrait.attrs.filter (fun attr => attr.ident ≠ "alias" ∧ attr.ident ≠ "scope") ∧
      outputTrait.items = items ++ [getPoolMethod] ∧
      List.Forall₂ (ItemConveyed (keptAliases aliasManager) scopeManager traitInstrument)
        userTrait.items items := by
  obtain ⟨outputTrait, h⟩ := userTrait_processed
  exact ⟨outputTrait, trait_declarations_reach_methods userTrait_written userTrait_survives h⟩

end RepoProcessor

end SqlxData.Macros
