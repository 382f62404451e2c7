import SqlxData.Macros.AliasExpansion

/-!
The order of the aliases. The loop replaces references as the worker of the
reference graph does, and so it calls an acyclic text circular exactly when
some order brings an alias back that was put in before.
-/

namespace SqlxData.Macros

open AliasManager ReferenceGraph

variable {m : AliasManager}

/-! ### Texts and fronts -/

theorem mem_root_iff {template : List Piece} {n : List Char} :
    n ∈ (m.graph (spell template)).root ↔ n ∈ references template := by
  constructor
  · exact fun h => (aliasPattern_infix_spell h.1.close_not_mem template).mp h.2
  · intro h
    have hname := isName_of_mem_references h
    exact ⟨hname, (aliasPattern_infix_spell hname.close_not_mem template).mpr h⟩

theorem mem_refs_iff {sql a n : List Char} {content : List Piece}
    (hmem : (a, spell content) ∈ m.aliases) :
    n ∈ (m.graph sql).refs a ↔ n ∈ references content := by
  constructor
  · rintro ⟨hname, content', hmem', hin⟩
    rw [eq_content hmem' hmem, aliasPattern_infix_spell hname.close_not_mem] at hin
    exact hin
  · intro h
    have hname := isName_of_mem_references h
    exact ⟨hname, _, hmem, (aliasPattern_infix_spell hname.close_not_mem content).mpr h⟩

/-- The front of a text: what it refers to, and what was put in. -/
def Shown (st : Substitution) (s : Front (List Char)) : Prop :=
  ∃ pieces, spell pieces = st.result ∧ s.present = {n | n ∈ references pieces} ∧
    s.marked = {n | n ∈ st.substituted}

theorem shown_start (template : List Piece) :
    Shown ⟨spell template, [], false⟩ (m.graph (spell template)).start := by
  refine ⟨template, rfl, ?_, ?_⟩
  · ext n
    exact (mem_root_iff (m := m)).trans Iff.rfl
  · simp [start]

theorem Shown.present_iff {st : Substitution} {s : Front (List Char)} (h : Shown st s)
    {n : List Char} (hn : '}' ∉ n) : n ∈ s.present ↔ aliasPattern n <:+: st.result := by
  obtain ⟨pieces, hspell, hpresent, -⟩ := h
  rw [hpresent, ← hspell, aliasPattern_infix_spell hn]
  rfl

theorem Shown.marked_iff {st : Substitution} {s : Front (List Char)} (h : Shown st s)
    {n : List Char} : n ∈ s.marked ↔ n ∈ st.substituted := by
  obtain ⟨pieces, -, -, hmarked⟩ := h
  rw [hmarked]
  rfl

theorem Shown.isName {st : Substitution} {s : Front (List Char)} (h : Shown st s)
    {n : List Char} (hn : n ∈ s.present) : IsName n := by
  obtain ⟨pieces, -, hpresent, -⟩ := h
  rw [hpresent] at hn
  exact isName_of_mem_references hn

section

variable (hnames : ∀ name ∈ m.names, IsName name) (hm : m.WellFormed) (sql : List Char)

include hnames hm

/-- The loop visits an alias as the worker does. -/
theorem visit_shown {st : Substitution} {s : Front (List Char)} (h : Shown st s)
    {entry : List Char × List Char} (hentry : entry ∈ m.aliases) :
    (∃ st' s', visitAlias st entry = .ok st' ∧ (m.graph sql).visit s entry.1 = some s' ∧
        Shown st' s') ∨
      (∃ err, visitAlias st entry = .error err) ∧ (m.graph sql).visit s entry.1 = none := by
  have hname := hnames entry.1 (List.mem_map_of_mem hentry)
  have hpresent := h.present_iff hname.close_not_mem
  have hmarked : entry.1 ∈ s.marked ↔ entry.1 ∈ st.substituted := h.marked_iff
  obtain ⟨hnot, hvisit⟩ | ⟨hin, hold, err, hvisit⟩ | ⟨hin, hnew, hvisit⟩ :=
    visitAlias_cases st entry
  · exact .inl ⟨st, s, hvisit, visit_of_absent (mt hpresent.mp hnot), h⟩
  · exact .inr ⟨⟨_, hvisit⟩, visit_of_marked (hpresent.mpr hin) (hmarked.mpr hold)⟩
  · refine .inl ⟨_, _, hvisit, visit_of_present (hpresent.mpr hin) (mt hmarked.mp hnew), ?_⟩
    obtain ⟨pieces, hspell, hrefs, hset⟩ := h
    obtain ⟨content, hcontent⟩ := hm entry hentry
    have hentry' : (entry.1, spell content) ∈ m.aliases := by rwa [hcontent]
    refine ⟨pieces.flatMap (Piece.expand entry.1 content), ?_, ?_, ?_⟩
    · rw [← replace_spell hname, hcontent, hspell]
    · ext n
      have hfound : entry.1 ∈ references pieces := by
        have hmem := hpresent.mpr hin
        rwa [hrefs] at hmem
      simp only [Set.mem_union, Set.mem_sdiff, Set.mem_singleton_iff, Set.mem_ofPred_eq, hrefs,
        mem_refs_iff hentry', mem_references_expand]
      tauto
    · ext n
      simp [hset]

/-- A run of the worker is a run of the loop. -/
theorem visits_shown {entries : List (List Char × List Char)}
    (hentries : ∀ entry ∈ entries, entry ∈ m.aliases) {st : Substitution} {s s' : Front (List Char)}
    (h : Shown st s) (hvisits : (m.graph sql).visits (entries.map Prod.fst) s = some s') :
    ∃ st', entries.foldlM visitAlias st = .ok st' ∧ Shown st' s' := by
  induction entries generalizing st s with
  | nil =>
      cases hvisits
      exact ⟨st, rfl, h⟩
  | cons entry entries ih =>
      rw [visits, List.map_cons, List.foldlM_cons] at hvisits
      obtain ⟨st₁, s₁, hvisit, hgraph, h₁⟩ | ⟨-, hgraph⟩ :=
        visit_shown hnames hm sql h (hentries entry List.mem_cons_self)
      · rw [hgraph] at hvisits
        rw [List.foldlM_cons, hvisit]
        exact ih (fun e he => hentries e (List.mem_cons_of_mem entry he)) h₁ hvisits
      · rw [hgraph] at hvisits
        cases hvisits

end

/-! ### Rounds -/

/-- What every visit keeps, the rounds keep. -/
theorem aliasRounds_keeps {order : List (List Char × List Char)} (P : Substitution → Prop)
    (hstep : ∀ st entry st', entry ∈ order → visitAlias st entry = .ok st' → P st → P st')
    (hflag : ∀ st, P st → P { st with changed := false }) {fuel : ℕ} {st st' : Substitution}
    (h : P st) (hrounds : aliasRounds order fuel st = some (.ok st')) : P st' := by
  induction fuel generalizing st with
  | zero => cases hrounds
  | succ fuel ih =>
      rw [aliasRounds, visitAliases] at hrounds
      cases hvisit : order.foldlM visitAlias { st with changed := false } with
      | error err =>
          rw [hvisit] at hrounds
          cases hrounds
      | ok st₁ =>
          have h₁ : P st₁ := Core.foldlM_keeps P hstep (hflag st h) hvisit
          rw [hvisit] at hrounds
          dsimp only at hrounds
          split_ifs at hrounds
          · exact ih h₁ hrounds
          · cases hrounds
            exact h₁

/-- Where no visit gives up, the rounds do not. -/
theorem aliasRounds_succeeds {order : List (List Char × List Char)} (P : Substitution → Prop)
    (hstep : ∀ st entry, entry ∈ order → P st → ∃ st', visitAlias st entry = .ok st' ∧ P st')
    (hflag : ∀ st, P st → P { st with changed := false }) {fuel : ℕ} {st : Substitution}
    (h : P st) {outcome : Except (SynError × Substitution) Substitution}
    (hrounds : aliasRounds order fuel st = some outcome) : ∃ st', outcome = .ok st' ∧ P st' := by
  induction fuel generalizing st with
  | zero => cases hrounds
  | succ fuel ih =>
      obtain ⟨st₁, hvisit, h₁⟩ := Core.foldlM_succeeds P hstep (hflag st h)
      rw [aliasRounds, visitAliases, hvisit] at hrounds
      dsimp only at hrounds
      split_ifs at hrounds
      · exact ih h₁ hrounds
      · cases hrounds
        exact ⟨st₁, rfl, h₁⟩

theorem shown_unchanged {st : Substitution} {s : Front (List Char)} (h : Shown st s) :
    Shown { st with changed := false } s := h

/-! ### Aliases mentioned once -/

section

variable (hnames : ∀ name ∈ m.names, IsName name) (hm : m.WellFormed) {template : List Piece}
  (hacyclic : (m.graph (spell template)).Acyclic)

include hnames hm hacyclic

theorem substitutes_of_single
    (hdefined : ∀ x, (m.graph (spell template)).Reaches none x → x ∈ m.names)
    (hsingle : (m.graph (spell template)).SinglyMentioned) (it : m.Iteration) :
    ∃ s, substituteAliases it (spell template) = some (.ok s) := by
  obtain ⟨outcome, hrounds, -, hnone⟩ := rounds_enough it (spell template)
  obtain ⟨st, rfl, s, hshown, htidy⟩ := aliasRounds_succeeds
    (fun st => ∃ s, Shown st s ∧ Tidy (m.graph (spell template)) s)
    (fun st entry hentry ⟨s, hshown, htidy⟩ => by
      obtain ⟨s', hgraph, htidy'⟩ := htidy.visit hacyclic hsingle entry.1
      obtain ⟨st', s'', hvisit, hgraph', hshown'⟩ | ⟨-, hgraph'⟩ :=
        visit_shown hnames hm (spell template) hshown (it.perm.mem_iff.mp hentry)
      · rw [hgraph] at hgraph'
        cases hgraph'
        exact ⟨st', hvisit, s', hshown', htidy'⟩
      · rw [hgraph] at hgraph'
        cases hgraph')
    (fun st ⟨s, hshown, htidy⟩ => ⟨s, shown_unchanged hshown, htidy⟩)
    ⟨_, shown_start template, tidy_start⟩ hrounds
  -- Whatever the result still names is defined, and no defined alias is left.
  have hclean : NoReference st.result := by
    obtain ⟨pieces, hspell, hpresent, -⟩ := hshown
    intro name _ hclose hin
    rw [← hspell, aliasPattern_infix_spell hclose] at hin
    have hmem : name ∈ s.present := by
      rw [hpresent]
      exact hin
    obtain ⟨entry, hentry, rfl⟩ := List.mem_map.mp (hdefined name (htidy.present_used hmem))
    apply hnone st rfl entry hentry
    rw [← hspell, aliasPattern_infix_spell hclose]
    exact hin
  refine ⟨st.result, ?_⟩
  rw [substituteAliases, hrounds]
  simp only [validateNoUnresolvedAliases, captures_eq_none_iff.mpr hclean]
  rfl

end

/-! ### Aliases mentioned twice -/

/-- Names can be visited first, in any order. -/
theorem exists_order {α β : Type} {names : List α} {l : List (α × β)} (hnodup : names.Nodup)
    (hsub : ∀ n ∈ names, n ∈ l.map Prod.fst) :
    ∃ front rest : List (α × β), front.map Prod.fst = names ∧ (front ++ rest).Perm l := by
  induction names generalizing l with
  | nil => exact ⟨[], l, rfl, .refl l⟩
  | cons n names ih =>
      obtain ⟨hnew, htail⟩ := List.nodup_cons.mp hnodup
      obtain ⟨entry, hentry, rfl⟩ := List.mem_map.mp (hsub n List.mem_cons_self)
      obtain ⟨l₁, l₂, rfl⟩ := List.append_of_mem hentry
      have hsub' : ∀ n ∈ names, n ∈ (l₁ ++ l₂).map Prod.fst := by
        intro n hn
        have hne : n ≠ entry.1 := fun h => hnew (h ▸ hn)
        have hmem := hsub n (List.mem_cons_of_mem _ hn)
        simp only [List.map_append, List.map_cons, List.mem_append, List.mem_cons] at hmem ⊢
        tauto
      obtain ⟨front, rest, hfront, hperm⟩ := ih htail hsub'
      refine ⟨entry :: front, rest, by rw [List.map_cons, hfront], ?_⟩
      exact (hperm.cons entry).trans List.perm_middle.symm

section

variable (hnames : ∀ name ∈ m.names, IsName name) (hm : m.WellFormed) {template : List Piece}

include hnames hm

omit hnames hm in
/-- Where a replaced alias returns, some defined alias stands in the text. -/
theorem exists_defined_of_returning {c : List Char} {st : Substitution} {s : Front (List Char)}
    (h : Returning (m.graph (spell template)) c s) (hshown : Shown st s)
    (hsub : Substituting m (spell template) st) :
    ∃ entry ∈ m.aliases, aliasPattern entry.1 <:+: st.result := by
  obtain ⟨hc, n, hn, hway⟩ := h
  have hdefined : n ∈ m.names := by
    obtain rfl | hreach := hway
    · exact hsub.defined n (hshown.marked_iff.mp hc)
    · obtain ⟨x, ⟨-, content, hmem, -⟩, -⟩ := hreach.first
      exact List.mem_map_of_mem hmem
  obtain ⟨entry, hentry, rfl⟩ := List.mem_map.mp hdefined
  exact ⟨entry, hentry, (hshown.present_iff (hshown.isName hn).close_not_mem).mp hn⟩

theorem fails_of_returning {names : List (List Char)} {c : List Char} {s : Front (List Char)}
    (hnodup : names.Nodup) (hdefined : ∀ n ∈ names, n ∈ m.names)
    (hvisits : (m.graph (spell template)).visits names (m.graph (spell template)).start = some s)
    (hreturn : Returning (m.graph (spell template)) c s) :
    ∃ it : m.Iteration, ∀ t, substituteAliases it (spell template) ≠ some (.ok t) := by
  obtain ⟨front, rest, rfl, hperm⟩ := exists_order hnodup hdefined
  refine ⟨⟨front ++ rest, hperm⟩, fun t ht => ?_⟩
  obtain ⟨outcome, hrounds, hsub, hnone⟩ := rounds_enough ⟨front ++ rest, hperm⟩ (spell template)
  have hmem : ∀ entry ∈ front ++ rest, entry ∈ m.aliases :=
    fun entry hentry => hperm.mem_iff.mp hentry
  -- The first round begins with the visits of the worker.
  obtain ⟨st₀, hfront, hshown₀⟩ := visits_shown hnames hm (spell template)
    (fun entry hentry => hmem entry (List.mem_append_left rest hentry))
    (shown_start template) hvisits
  have hround : (front ++ rest).foldlM visitAlias ⟨spell template, [], false⟩ =
      rest.foldlM visitAlias st₀ := by
    rw [List.foldlM_append, hfront]
    rfl
  let P (st : Substitution) : Prop := ∃ s, Shown st s ∧ Returning (m.graph (spell template)) c s
  have hstep (st : Substitution) (entry : List Char × List Char) (st' : Substitution)
      (hentry : entry ∈ front ++ rest) (hvisit : visitAlias st entry = .ok st') (h : P st) :
      P st' := by
    obtain ⟨s, hshown, hreturn⟩ := h
    obtain ⟨st'', s', hvisit', hgraph, hshown'⟩ | ⟨⟨err, hvisit'⟩, -⟩ :=
      visit_shown hnames hm (spell template) hshown (hmem entry hentry)
    · rw [hvisit] at hvisit'
      cases hvisit'
      exact ⟨s', hshown', hreturn.visit hgraph⟩
    · rw [hvisit] at hvisit'
      cases hvisit'
  have hend (st : Substitution) (h : outcome = .ok st) : P st := by
    subst h
    rw [aliasRounds, visitAliases, hround] at hrounds
    cases hrest : rest.foldlM visitAlias st₀ with
    | error err =>
        rw [hrest] at hrounds
        cases hrounds
    | ok st₁ =>
        have h₁ : P st₁ := Core.foldlM_keeps P
          (fun st entry st' hentry => hstep st entry st' (List.mem_append_right front hentry))
          ⟨s, hshown₀, hreturn⟩ hrest
        rw [hrest] at hrounds
        dsimp only at hrounds
        split_ifs at hrounds
        · refine aliasRounds_keeps P hstep (fun st h => ?_) h₁ hrounds
          obtain ⟨s, hshown, hreturn⟩ := h
          exact ⟨s, shown_unchanged hshown, hreturn⟩
        · cases hrounds
          exact h₁
  rw [substituteAliases, hrounds] at ht
  cases outcome with
  | error err => cases ht
  | ok st =>
      obtain ⟨s', hshown, hreturn'⟩ := hend st rfl
      obtain ⟨entry, hentry, hin⟩ := exists_defined_of_returning hreturn' hshown hsub
      exact hnone st rfl entry hentry hin

end

/-! ### Two orders -/

theorem chain_aliases :
    chain.aliases =
      [(['a'], spell [.ref ['b'] (by decide), .char 'x' (by decide), .ref ['b'] (by decide)]),
        (['b'], spell [.char 'y' (by decide)])] := rfl

theorem chain_refs {sql x n : List Char} (h : n ∈ (chain.graph sql).refs x) :
    x = ['a'] ∧ n = ['b'] := by
  obtain ⟨hname, content, hmem, hin⟩ := h
  rw [chain_aliases, List.mem_cons, List.mem_singleton] at hmem
  obtain heq | heq := hmem
  · cases heq
    rw [aliasPattern_infix_spell hname.close_not_mem] at hin
    have hn : n ∈ [['b'], ['b']] := hin
    exact ⟨rfl, by simpa using hn⟩
  · cases heq
    rw [aliasPattern_infix_spell hname.close_not_mem] at hin
    cases hin

theorem chain_acyclic (sql : List Char) : (chain.graph sql).Acyclic := by
  apply acyclic_of_rank (fun x => if x = ['a'] then 1 else 0)
  intro x n h
  obtain ⟨rfl, rfl⟩ := chain_refs h
  decide

theorem chain_wellFormed : chain.WellFormed := by
  intro entry hentry
  rw [chain_aliases, List.mem_cons, List.mem_singleton] at hentry
  obtain rfl | rfl := hentry
  · exact ⟨_, rfl⟩
  · exact ⟨_, rfl⟩

/-- An alias that was put in for the template comes back with the content of
another one. -/
theorem shared_alias_circular :
    ¬∀ (m : AliasManager) (template : List Piece) (it : m.Iteration),
      (∀ name ∈ m.names, IsName name) → m.WellFormed → (m.graph (spell template)).Acyclic →
      (∀ x, (m.graph (spell template)).Reaches none x → x ∈ m.names) →
        ∃ s, Expands m template s ∧ substituteAliases it (spell template) = some (.ok s) := by
  intro h
  have hdefined (x : List Char)
      (hx : (chain.graph (spell [.ref ['b'] (by decide), .ref ['a'] (by decide)])).Reaches none x) :
      x ∈ chain.names := by
    cases hx with
    | mention hx =>
        have hmem : x ∈ [['b'], ['a']] := (mem_root_iff (m := chain)).mp hx
        have hsub : [['b'], ['a']] ⊆ chain.names := by decide
        exact hsub hmem
    | step _ hx =>
        rw [(chain_refs hx).2]
        decide
  obtain ⟨s, -, hs⟩ := h chain [.ref ['b'] (by decide), .ref ['a'] (by decide)]
    ⟨chain.aliases.reverse, List.reverse_perm _⟩ (by decide) chain_wellFormed (chain_acyclic _)
    hdefined
  cases hs

/-- In an acyclic map every order of the aliases gives the full expansion
exactly when all reached aliases are defined and none of them is mentioned by
two texts. -/
theorem substituteAliases_order_iff (m : AliasManager) (hnames : ∀ name ∈ m.names, IsName name)
    (hm : m.WellFormed) (template : List Piece)
    (hacyclic : (m.graph (spell template)).Acyclic) :
    (∃ s, Expands m template s ∧
        ∀ it : m.Iteration, substituteAliases it (spell template) = some (.ok s)) ↔
      (∀ x, (m.graph (spell template)).Reaches none x → x ∈ m.names) ∧
        (m.graph (spell template)).SinglyMentioned := by
  constructor
  · rintro ⟨s, hexpands, hall⟩
    have hdefined : ∀ x, (m.graph (spell template)).Reaches none x → x ∈ m.names :=
      fun x hx => (hexpands.expansion.reached hnames hx).1
    refine ⟨hdefined, ?_⟩
    by_contra hmany
    obtain ⟨names, c, s', hnodup, hused, hvisits, hreturn⟩ := exists_returning hacyclic hmany
    obtain ⟨it, hfails⟩ := fails_of_returning hnames hm hnodup
      (fun n hn => hdefined n (hused n hn)) hvisits hreturn
    exact hfails s (hall it)
  · rintro ⟨hdefined, hsingle⟩
    have hexpansion (it : m.Iteration) : ∃ s, substituteAliases it (spell template) =
        some (.ok s) ∧ Expansion m (spell template) s := by
      obtain ⟨s, hs⟩ := substitutes_of_single hnames hm hacyclic hdefined hsingle it
      obtain ⟨err, herr⟩ | ⟨t, ht, hexpansion⟩ := substituteAliases_cases it (spell template)
      · rw [hs] at herr
        cases herr
      · exact ⟨t, ht, hexpansion⟩
    obtain ⟨s, -, hs⟩ := hexpansion ⟨m.aliases, .refl _⟩
    refine ⟨s, hs.expands hnames hm, fun it => ?_⟩
    obtain ⟨t, ht, htexpansion⟩ := hexpansion it
    rw [ht, htexpansion.unique hnames hs]

theorem chain_order :
    ∃ s, Expands chain [.ref ['a'] (by decide)] s ∧
      ∀ it : chain.Iteration, substituteAliases it (spell [.ref ['a'] (by decide)]) =
        some (.ok s) := by
  apply (substituteAliases_order_iff chain (by decide) chain_wellFormed _ (chain_acyclic _)).mpr
  have hroot {x : List Char}
      (hx : x ∈ (chain.graph (spell [.ref ['a'] (by decide)])).root) : x = ['a'] := by
    have hmem : x ∈ [['a']] := (mem_root_iff (m := chain)).mp hx
    simpa using hmem
  constructor
  · intro x hx
    cases hx with
    | mention hx =>
        rw [hroot hx]
        decide
    | step _ hx =>
        rw [(chain_refs hx).2]
        decide
  · rintro c (_ | u) (_ | v) - - hu hv
    · rfl
    · have hc := (chain_refs hv).2
      rw [hroot hu] at hc
      cases hc
    · have hc := (chain_refs hu).2
      rw [hroot hv] at hc
      cases hc
    · rw [(chain_refs hu).1, (chain_refs hv).1]

end SqlxData.Macros
