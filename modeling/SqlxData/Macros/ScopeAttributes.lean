import SqlxData.Macros.Injection

/-!
The attributes that declare scopes. An attribute is read item by item into
three variables, so of several pairs the last one is left; the map of the
manager keeps the last definition of a name.
-/

namespace SqlxData.Macros

/-! ### Reading of attributes -/

/-- An item between the parentheses of an attribute. -/
inductive NestedMeta
  | path (ident : String)
  | nameValue (ident value : String)
  /-- No identifier in front, or no string behind `=`. -/
  | malformed (err : SynError)
  deriving DecidableEq

structure Attribute where
  path : String
  items : List NestedMeta
  deriving DecidableEq

/-- The variables the callback of `parse_scope_attribute` writes. -/
structure ScopeVars where
  scopeName : Option String
  scopeSql : Option String
  target : ScopeTarget

def ScopeVars.start : ScopeVars := ⟨none, none, .where⟩

def parseScopeMeta (vars : ScopeVars) : NestedMeta → Except SynError ScopeVars
  | .malformed err => .error err
  | .path _ => .error (synError "Expected `key = \"value\"` format")
  | .nameValue key value =>
      if key = "target" then do
        let target ← ScopeTarget.fromString value.toList
        .ok { vars with target := target }
      else
        .ok { vars with scopeName := some key, scopeSql := some value }

namespace ScopeManager

def parseScopeAttribute (manager : ScopeManager) (attr : Attribute) :
    Except SynError ScopeManager := do
  let vars ← attr.items.foldlM parseScopeMeta .start
  match vars.scopeName with
  | none => .error (synError "Scope name is required")
  | some scopeName =>
      match vars.scopeSql with
      | none => .error (synError "Scope SQL content is required")
      | some scopeSql => .ok (manager.addScope scopeName scopeSql vars.target)

def parseIgnoredMeta (manager : ScopeManager) : NestedMeta → Except SynError ScopeManager
  | .malformed err => .error err
  | .path ident => .ok (manager.addIgnoredScope ident)
  -- the name is read, and then a comma has to follow
  | .nameValue _ _ => .error (synError "expected `,`")

def parseScopeIgnoreAttribute (manager : ScopeManager) (attr : Attribute) :
    Except SynError ScopeManager :=
  attr.items.foldlM parseIgnoredMeta manager

def parseFromAttributes (traitAttrs methodAttrs : List Attribute) :
    Except SynError ScopeManager := do
  let manager ← traitAttrs.foldlM (fun manager attr =>
    if attr.path = "scope" then manager.parseScopeAttribute attr else .ok manager) new
  methodAttrs.foldlM (fun manager attr =>
    if attr.path = "scope_ignore" then manager.parseScopeIgnoreAttribute attr
    else .ok manager) manager

end ScopeManager

/-! ### What is declared -/

/-- A `name = "sql"` pair. -/
def NestedMeta.pair : NestedMeta → Option (String × String)
  | .nameValue key value => if key = "target" then none else some (key, value)
  | _ => none

def NestedMeta.target : NestedMeta → Option ScopeTarget
  | .nameValue key value =>
      if key = "target" then (ScopeTarget.fromString value.toList).toOption else none
  | _ => none

def NestedMeta.ident : NestedMeta → Option String
  | .path ident => some ident
  | _ => none

/-- A pair or a target there is. -/
def NestedMeta.accepted (item : NestedMeta) : Bool := item.pair.isSome || item.target.isSome

namespace Attribute

def pairs (attr : Attribute) : List (String × String) := attr.items.filterMap NestedMeta.pair

/-- A WHERE without a target. -/
def target (attr : Attribute) : ScopeTarget :=
  (attr.items.filterMap NestedMeta.target).getLast?.getD .where

def definition (attr : Attribute) (pair : String × String) : ScopeDefinition :=
  ⟨pair.1, pair.2, attr.target⟩

/-- The scopes the attribute declares, each with its SQL. -/
def declared (attr : Attribute) : List ScopeDefinition := attr.pairs.map attr.definition

/-- The scope that is left of them. -/
def last (attr : Attribute) : Option ScopeDefinition := attr.pairs.getLast?.map attr.definition

/-- There is a pair, and no item is refused. -/
def accepted (attr : Attribute) : Bool :=
  attr.items.all NestedMeta.accepted && !attr.pairs.isEmpty

/-- The names of a `scope_ignore`. -/
def ignored (attr : Attribute) : List String := attr.items.filterMap NestedMeta.ident

def ignoreAccepted (attr : Attribute) : Bool := attr.items.all (·.ident.isSome)

end Attribute

def scopeAttributes (attrs : List Attribute) : List Attribute := attrs.filter (·.path = "scope")

def ignoreAttributes (attrs : List Attribute) : List Attribute :=
  attrs.filter (·.path = "scope_ignore")

/-- All scopes a trait declares. -/
def declaredScopes (traitAttrs : List Attribute) : List ScopeDefinition :=
  (scopeAttributes traitAttrs).flatMap Attribute.declared

/-- The last scopes of its attributes. -/
def lastScopes (traitAttrs : List Attribute) : List ScopeDefinition :=
  (scopeAttributes traitAttrs).filterMap Attribute.last

def ignoredNames (methodAttrs : List Attribute) : List String :=
  (ignoreAttributes methodAttrs).flatMap Attribute.ignored

/-- No attribute is refused. -/
def AttributesAccepted (traitAttrs methodAttrs : List Attribute) : Prop :=
  (∀ a ∈ scopeAttributes traitAttrs, a.accepted = true) ∧
    ∀ a ∈ ignoreAttributes methodAttrs, a.ignoreAccepted = true

/-! ### One attribute -/

def ScopeVars.advance (vars : ScopeVars) (item : NestedMeta) : ScopeVars where
  scopeName := (item.pair.map Prod.fst).or vars.scopeName
  scopeSql := (item.pair.map Prod.snd).or vars.scopeSql
  target := item.target.getD vars.target

theorem parseScopeMeta_ok (vars : ScopeVars) {item : NestedMeta} (h : item.accepted = true) :
    parseScopeMeta vars item = .ok (vars.advance item) := by
  cases item with
  | path | malformed => cases h
  | nameValue key value =>
      by_cases hkey : key = "target"
      · cases htarget : ScopeTarget.fromString value.toList with
        | error err =>
            simp [NestedMeta.accepted, NestedMeta.pair, NestedMeta.target, hkey, htarget,
              Except.toOption] at h
        | ok target =>
            simp [parseScopeMeta, hkey, htarget, ScopeVars.advance, NestedMeta.pair,
              NestedMeta.target, Except.toOption, Bind.bind, Except.bind]
      · simp [parseScopeMeta, hkey, ScopeVars.advance, NestedMeta.pair, NestedMeta.target]

theorem parseScopeMeta_error (vars : ScopeVars) {item : NestedMeta} (h : item.accepted = false) :
    ∃ err, parseScopeMeta vars item = .error err := by
  cases item with
  | malformed err => exact ⟨err, rfl⟩
  | path ident => exact ⟨_, rfl⟩
  | nameValue key value =>
      by_cases hkey : key = "target"
      · cases htarget : ScopeTarget.fromString value.toList with
        | error err => exact ⟨err, by simp [parseScopeMeta, hkey, htarget, Bind.bind, Except.bind]⟩
        | ok target =>
            simp [NestedMeta.accepted, NestedMeta.pair, NestedMeta.target, hkey, htarget,
              Except.toOption] at h
      · simp [NestedMeta.accepted, NestedMeta.pair, hkey] at h

/-- A loop whose steps succeed on accepted elements computes the plain fold. -/
theorem foldlM_of_accepted {ε σ α : Type} {f : σ → α → Except ε σ} {step : σ → α → σ}
    {accepted : α → Bool} (hok : ∀ s a, accepted a = true → f s a = .ok (step s a)) {xs : List α}
    (h : ∀ a ∈ xs, accepted a = true) (s : σ) : xs.foldlM f s = .ok (xs.foldl step s) := by
  induction xs generalizing s with
  | nil => rfl
  | cons a xs ih =>
      rw [List.foldlM_cons, hok s a (h a (by simp))]
      exact ih (fun b hb => h b (by simp [hb])) (step s a)

/-- A loop whose steps fail on other elements fails if there is one. -/
theorem foldlM_of_not_accepted {ε σ α : Type} {f : σ → α → Except ε σ} {accepted : α → Bool}
    (herr : ∀ s a, accepted a = false → ∃ err, f s a = .error err) {xs : List α}
    (h : ∃ a ∈ xs, accepted a = false) (s : σ) : ∃ err, xs.foldlM f s = .error err := by
  induction xs generalizing s with
  | nil => simp at h
  | cons a xs ih =>
      rw [List.foldlM_cons]
      cases hstep : f s a with
      | error err => exact ⟨err, rfl⟩
      | ok s' =>
          refine ih ?_ s'
          obtain ⟨b, hb, hrefused⟩ := h
          rcases List.mem_cons.mp hb with rfl | hb
          · obtain ⟨err, herr⟩ := herr s b hrefused
            rw [hstep] at herr
            cases herr
          · exact ⟨b, hb, hrefused⟩

/-- What the items write: the last pair and the last target. -/
theorem foldl_advance (items : List NestedMeta) (vars : ScopeVars) :
    let pair := (items.filterMap NestedMeta.pair).getLast?
    items.foldl ScopeVars.advance vars =
      ⟨(pair.map Prod.fst).or vars.scopeName, (pair.map Prod.snd).or vars.scopeSql,
        (items.filterMap NestedMeta.target).getLast?.getD vars.target⟩ := by
  induction items using List.reverseRecOn with
  | nil => rfl
  | append_singleton items item ih =>
      simp only [List.foldl_append, List.foldl_cons, List.foldl_nil, ih, ScopeVars.advance,
        List.filterMap_append]
      cases hpair : item.pair <;> cases htarget : item.target <;> simp [hpair, htarget]

namespace ScopeManager

def addDefinition (m : ScopeManager) (d : ScopeDefinition) : ScopeManager :=
  m.addScope d.name d.sql d.target

theorem parseScopeAttribute_ok (m : ScopeManager) {attr : Attribute} (h : attr.accepted = true) :
    ∃ d, attr.last = some d ∧ m.parseScopeAttribute attr = .ok (m.addDefinition d) := by
  rw [Attribute.accepted, Bool.and_eq_true, List.all_eq_true] at h
  obtain ⟨hitems, hpairs⟩ := h
  have hsome : attr.pairs.getLast?.isSome := by
    simpa [List.getLast?_isSome] using hpairs
  obtain ⟨pair, hpair⟩ := Option.isSome_iff_exists.mp hsome
  refine ⟨attr.definition pair, by rw [Attribute.last, hpair]; rfl, ?_⟩
  rw [parseScopeAttribute, foldlM_of_accepted parseScopeMeta_ok hitems, foldl_advance]
  rw [Attribute.pairs] at hpair
  simp only [Bind.bind, Except.bind, hpair]
  rfl

theorem parseScopeAttribute_error (m : ScopeManager) {attr : Attribute}
    (h : attr.accepted = false) : ∃ err, m.parseScopeAttribute attr = .error err := by
  by_cases hitems : ∀ item ∈ attr.items, item.accepted = true
  · have hpairs : attr.pairs = [] := by
      rw [Attribute.accepted, List.all_eq_true.mpr hitems] at h
      simpa using h
    rw [parseScopeAttribute, foldlM_of_accepted parseScopeMeta_ok hitems, foldl_advance]
    rw [Attribute.pairs] at hpairs
    simp only [Bind.bind, Except.bind, hpairs]
    exact ⟨_, rfl⟩
  · have hrefused : ∃ item ∈ attr.items, item.accepted = false := by
      simpa using hitems
    obtain ⟨err, herr⟩ := foldlM_of_not_accepted parseScopeMeta_error hrefused .start
    exact ⟨err, by rw [parseScopeAttribute, herr]; rfl⟩

/-! ### Definitions of one name -/

theorem mem_addDefinition {m : ScopeManager} {d e : ScopeDefinition} :
    e ∈ (m.addDefinition d).scopes ↔ e = d ∨ e ∈ m.scopes ∧ e.name ≠ d.name := by
  cases d
  simp [addDefinition, addScope, or_comm]

/-- Nothing else gets in, and each name has one of its definitions. -/
theorem mem_foldl_addDefinition {ds : List ScopeDefinition} {m : ScopeManager}
    {e : ScopeDefinition} (h : e ∈ (ds.foldl addDefinition m).scopes) : e ∈ m.scopes ∨ e ∈ ds := by
  induction ds generalizing m with
  | nil => exact .inl h
  | cons d ds ih =>
      rcases ih h with h | h
      · rcases mem_addDefinition.mp h with rfl | ⟨h, -⟩
        · exact .inr (by simp)
        · exact .inl h
      · exact .inr (by simp [h])

theorem exists_foldl_addDefinition {ds : List ScopeDefinition} {m : ScopeManager}
    {d : ScopeDefinition} (h : d ∈ m.scopes ∨ d ∈ ds) :
    ∃ e ∈ (ds.foldl addDefinition m).scopes, e.name = d.name := by
  induction ds generalizing m d with
  | nil => exact ⟨d, h.resolve_right List.not_mem_nil, rfl⟩
  | cons c ds ih =>
      by_cases hname : d.name = c.name
      · obtain ⟨e, he, hsame⟩ := @ih (m.addDefinition c) c (.inl (mem_addDefinition.mpr (.inl rfl)))
        exact ⟨e, he, hsame.trans hname.symm⟩
      · refine ih ?_
        rcases h with h | h
        · exact .inl (mem_addDefinition.mpr (.inr ⟨h, hname⟩))
        · exact .inr ((List.mem_cons.mp h).resolve_left fun heq => hname (by rw [heq]))

theorem eq_of_name_eq (m : ScopeManager) {d e : ScopeDefinition} (hd : d ∈ m.scopes)
    (he : e ∈ m.scopes) (h : d.name = e.name) : d = e :=
  List.inj_on_of_nodup_map m.nodup hd he h

/-- All of some definitions are kept exactly when they are among those added
and a name has no two different ones. -/
theorem all_kept_iff {ds declared : List ScopeDefinition} (hsub : ∀ d ∈ ds, d ∈ declared) :
    (∀ d ∈ declared, d ∈ (ds.foldl addDefinition new).scopes) ↔
      (∀ d ∈ declared, d ∈ ds) ∧ ∀ d ∈ ds, ∀ e ∈ ds, d.name = e.name → d = e := by
  constructor
  · intro h
    refine ⟨fun d hd => ?_, fun d hd e he hname => ?_⟩
    · exact (mem_foldl_addDefinition (h d hd)).resolve_left List.not_mem_nil
    · exact eq_of_name_eq _ (h d (hsub d hd)) (h e (hsub e he)) hname
  · rintro ⟨hlast, hone⟩ d hd
    obtain ⟨e, he, hname⟩ := @exists_foldl_addDefinition ds new d (.inr (hlast d hd))
    have hmem := (mem_foldl_addDefinition he).resolve_left List.not_mem_nil
    rwa [← hone e hmem d (hlast d hd) hname]

/-! ### All attributes -/

@[simp]
theorem addDefinition_ignoredScopes (m : ScopeManager) (d : ScopeDefinition) :
    (m.addDefinition d).ignoredScopes = m.ignoredScopes := rfl

theorem foldl_addDefinition_ignoredScopes (ds : List ScopeDefinition) (m : ScopeManager) :
    (ds.foldl addDefinition m).ignoredScopes = m.ignoredScopes := by
  induction ds generalizing m with
  | nil => rfl
  | cons d ds ih => exact ih (m.addDefinition d)

def addIgnored (m : ScopeManager) (names : List String) : ScopeManager :=
  { m with ignoredScopes := m.ignoredScopes ++ names }

theorem addIgnored_nil (m : ScopeManager) : m.addIgnored [] = m := by
  simp [addIgnored]

theorem addIgnored_addIgnored (m : ScopeManager) (names more : List String) :
    (m.addIgnored names).addIgnored more = m.addIgnored (names ++ more) := by
  simp [addIgnored]

theorem parseIgnoredMeta_ok (m : ScopeManager) {item : NestedMeta}
    (h : item.ident.isSome = true) :
    parseIgnoredMeta m item = .ok (m.addIgnored item.ident.toList) := by
  cases item with
  | path ident => rfl
  | malformed | nameValue => cases h

theorem parseIgnoredMeta_error (m : ScopeManager) {item : NestedMeta}
    (h : item.ident.isSome = false) : ∃ err, parseIgnoredMeta m item = .error err := by
  cases item with
  | path ident => cases h
  | malformed err => exact ⟨err, rfl⟩
  | nameValue key value => exact ⟨_, rfl⟩

theorem foldl_addIgnored {α : Type} (names : α → List String) (xs : List α) (m : ScopeManager) :
    xs.foldl (fun m a => m.addIgnored (names a)) m = m.addIgnored (xs.flatMap names) := by
  induction xs generalizing m with
  | nil => exact m.addIgnored_nil.symm
  | cons a xs ih => exact (ih _).trans (m.addIgnored_addIgnored _ _)

theorem parseScopeIgnoreAttribute_ok (m : ScopeManager) {attr : Attribute}
    (h : attr.ignoreAccepted = true) :
    m.parseScopeIgnoreAttribute attr = .ok (m.addIgnored attr.ignored) := by
  rw [parseScopeIgnoreAttribute, foldlM_of_accepted parseIgnoredMeta_ok (List.all_eq_true.mp h),
    foldl_addIgnored, Attribute.ignored, List.filterMap_eq_flatMap_toList]

theorem parseScopeIgnoreAttribute_error (m : ScopeManager) {attr : Attribute}
    (h : attr.ignoreAccepted = false) :
    ∃ err, m.parseScopeIgnoreAttribute attr = .error err := by
  obtain ⟨item, hitem, hrefused⟩ := List.all_eq_false.mp h
  exact foldlM_of_not_accepted parseIgnoredMeta_error ⟨item, hitem, by simpa using hrefused⟩ m

def parsed (traitAttrs methodAttrs : List Attribute) : ScopeManager :=
  ((lastScopes traitAttrs).foldl addDefinition new).addIgnored (ignoredNames methodAttrs)

theorem parseFromAttributes_eq (traitAttrs methodAttrs : List Attribute) :
    parseFromAttributes traitAttrs methodAttrs =
      (scopeAttributes traitAttrs).foldlM parseScopeAttribute new >>=
        (ignoreAttributes methodAttrs).foldlM parseScopeIgnoreAttribute := by
  simp only [scopeAttributes, ignoreAttributes, List.foldlM_filter]
  simp [parseFromAttributes, Pure.pure, Except.pure]

theorem parseFromAttributes_ok {traitAttrs methodAttrs : List Attribute}
    (h : AttributesAccepted traitAttrs methodAttrs) :
    parseFromAttributes traitAttrs methodAttrs = .ok (parsed traitAttrs methodAttrs) := by
  obtain ⟨hscopes, hignored⟩ := h
  have hstep (m : ScopeManager) (attr : Attribute) (haccepted : attr.accepted = true) :
      m.parseScopeAttribute attr = .ok (match attr.last with
        | some d => m.addDefinition d
        | none => m) := by
    obtain ⟨d, hlast, hok⟩ := m.parseScopeAttribute_ok haccepted
    rw [hlast, hok]
  have hfold : (scopeAttributes traitAttrs).foldlM parseScopeAttribute new =
      .ok ((lastScopes traitAttrs).foldl addDefinition new) := by
    rw [foldlM_of_accepted hstep hscopes, lastScopes, List.foldl_filterMap]
    congr 2
    funext m attr
    cases attr.last <;> rfl
  rw [parseFromAttributes_eq, hfold]
  exact (foldlM_of_accepted parseScopeIgnoreAttribute_ok hignored _).trans
    (congrArg Except.ok (foldl_addIgnored _ _ _))

theorem parseFromAttributes_error {traitAttrs methodAttrs : List Attribute}
    (h : ¬ AttributesAccepted traitAttrs methodAttrs) :
    ∃ err, parseFromAttributes traitAttrs methodAttrs = .error err := by
  rw [parseFromAttributes_eq]
  cases hscopes : (scopeAttributes traitAttrs).foldlM parseScopeAttribute new with
  | error err => exact ⟨err, rfl⟩
  | ok m =>
      have haccepted : ∀ a ∈ scopeAttributes traitAttrs, a.accepted = true := by
        by_contra hrefused
        obtain ⟨err, herr⟩ := foldlM_of_not_accepted parseScopeAttribute_error
          (by simpa using hrefused) new
        rw [hscopes] at herr
        cases herr
      refine foldlM_of_not_accepted parseScopeIgnoreAttribute_error ?_ m
      by_contra hignored
      exact h ⟨haccepted, by simpa using hignored⟩

/-- Either there is an error, or every declared scope is there with its SQL and
its target, and the active scopes are the declared ones that are not ignored. -/
def ScopesKept (traitAttrs methodAttrs : List Attribute) : Prop :=
  (∃ err, parseFromAttributes traitAttrs methodAttrs = .error err) ∨
    ∃ manager, parseFromAttributes traitAttrs methodAttrs = .ok manager ∧
      (∀ d ∈ declaredScopes traitAttrs, d ∈ manager.scopes) ∧
      ∀ d, d ∈ manager.getActiveScopes ↔
        d ∈ declaredScopes traitAttrs ∧ d.name ∉ ignoredNames methodAttrs

theorem lastScopes_subset {traitAttrs : List Attribute} {d : ScopeDefinition}
    (h : d ∈ lastScopes traitAttrs) : d ∈ declaredScopes traitAttrs := by
  obtain ⟨attr, hattr, hlast⟩ := List.mem_filterMap.mp h
  obtain ⟨pair, hpair, rfl⟩ := Option.map_eq_some_iff.mp hlast
  exact List.mem_flatMap.mpr ⟨attr, hattr, List.mem_map_of_mem (List.mem_of_getLast? hpair)⟩

theorem mem_parsed_getActiveScopes {traitAttrs methodAttrs : List Attribute}
    {d : ScopeDefinition} :
    d ∈ (parsed traitAttrs methodAttrs).getActiveScopes ↔
      d ∈ ((lastScopes traitAttrs).foldl addDefinition new).scopes ∧
        d.name ∉ ignoredNames methodAttrs := by
  simp [getActiveScopes, parsed, addIgnored, foldl_addDefinition_ignoredScopes, new]

theorem scopesKept_iff_of_accepted {traitAttrs methodAttrs : List Attribute}
    (h : AttributesAccepted traitAttrs methodAttrs) :
    ScopesKept traitAttrs methodAttrs ↔
      ∀ d ∈ declaredScopes traitAttrs,
        d ∈ ((lastScopes traitAttrs).foldl addDefinition new).scopes := by
  have hok := parseFromAttributes_ok h
  constructor
  · rintro (⟨err, herr⟩ | ⟨m, hm, hkept, -⟩)
    · rw [hok] at herr
      cases herr
    · rw [hok] at hm
      cases hm
      exact hkept
  · intro hkept
    refine .inr ⟨_, hok, hkept, fun d => mem_parsed_getActiveScopes.trans ?_⟩
    refine and_congr_left' ⟨fun hd => lastScopes_subset ?_, hkept d⟩
    exact (mem_foldl_addDefinition hd).resolve_left List.not_mem_nil

/-- Nothing is lost exactly when there is an error, or the last pair of each
attribute stands for all of its pairs and no name has two different scopes. -/
theorem scopes_kept_iff (traitAttrs methodAttrs : List Attribute) :
    ScopesKept traitAttrs methodAttrs ↔
      ¬ AttributesAccepted traitAttrs methodAttrs ∨
        (∀ d ∈ declaredScopes traitAttrs, d ∈ lastScopes traitAttrs) ∧
          ∀ d ∈ lastScopes traitAttrs, ∀ e ∈ lastScopes traitAttrs, d.name = e.name → d = e := by
  by_cases haccepted : AttributesAccepted traitAttrs methodAttrs
  · rw [scopesKept_iff_of_accepted haccepted, all_kept_iff fun d => lastScopes_subset]
    exact (or_iff_right (not_not.mpr haccepted)).symm
  · exact iff_of_true (.inl (parseFromAttributes_error haccepted)) (.inl haccepted)

def tenantAndLive : Attribute :=
  ⟨"scope", [.nameValue "tenant" "tenant_id = 1", .nameValue "live" "deleted_at IS NULL"]⟩

/-- Of two pairs in one attribute the first is lost. -/
theorem not_scopesKept_tenantAndLive : ¬ ScopesKept [tenantAndLive] [] := by
  rw [scopesKept_iff_of_accepted ⟨by decide, by decide⟩]
  decide

end ScopeManager

end SqlxData.Macros
