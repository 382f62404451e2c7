import SqlxData.Lib.ReferenceGraph
import SqlxData.Lib.Rewriting
import SqlxData.Macros.AliasText

/-!
The substitution of aliases as rewriting: a step puts one content in for one
reference. Steps at different references do not disturb each other, so a text
has at most one expansion. The loop follows some order of steps and marks what
it has put in; no mark is set twice, and that ends it.
-/

namespace SqlxData.Macros

open Rewriting

/-- Put the content in for one reference. -/
inductive Step (m : AliasManager) : List Char → List Char → Prop
  | mk (before name content rest : List Char) (mem : (name, content) ∈ m.aliases) :
      Step m (before ++ (aliasPattern name ++ rest)) (before ++ (content ++ rest))

/-- No alias is named any more, defined or not. -/
def NoReference (text : List Char) : Prop :=
  ∀ name, name ≠ [] → '}' ∉ name → ¬aliasPattern name <:+: text

/-- What is left when every reference has been put in, again and again. -/
def Expansion (m : AliasManager) (sql text : List Char) : Prop :=
  (∃ n, Steps (Step m) n sql text) ∧ NoReference text

/-- What the SQL mentions, and what the contents mention. -/
def AliasManager.graph (m : AliasManager) (sql : List Char) : ReferenceGraph (List Char) where
  root := {n | IsName n ∧ aliasPattern n <:+: sql}
  refs a := {n | IsName n ∧ ∃ content, (a, content) ∈ m.aliases ∧ aliasPattern n <:+: content}

variable {m : AliasManager}

/-! ### Steps -/

theorem eq_content {name content content' : List Char} (h : (name, content) ∈ m.aliases)
    (h' : (name, content') ∈ m.aliases) : content = content' := by
  have heq : (name, content) = (name, content') := List.inj_on_of_nodup_map m.nodup h h' rfl
  exact congrArg Prod.snd heq

theorem Step.context {u v : List Char} (h : Step m u v) (before rest : List Char) :
    Step m (before ++ (u ++ rest)) (before ++ (v ++ rest)) := by
  obtain ⟨l, name, content, r, hmem⟩ := h
  have hstep := Step.mk (before ++ l) name content (r ++ rest) hmem
  simpa using hstep

theorem steps_context {n : ℕ} {u v : List Char} (h : Steps (Step m) n u v)
    (before rest : List Char) :
    Steps (Step m) n (before ++ (u ++ rest)) (before ++ (v ++ rest)) := by
  induction h with
  | zero => exact .zero _
  | succ h _ ih => exact .succ (h.context before rest) ih

/-- Putting a content in everywhere is a run. -/
theorem replace_steps {name content : List Char} (hmem : (name, content) ∈ m.aliases)
    (before text : List Char) :
    ∃ n, Steps (Step m) n (before ++ text)
      (before ++ Text.replace (aliasPattern name) content text) := by
  induction text using Text.replace_cases (aliasPattern_ne_nil name) generalizing before with
  | nil => exact ⟨0, .zero _⟩
  | hit xs ih =>
      obtain ⟨n, hn⟩ := ih (before ++ content)
      rw [Text.replace_append_self (aliasPattern_ne_nil name)]
      refine ⟨n + 1, .succ (.mk before name content xs hmem) ?_⟩
      simpa using hn
  | miss x xs hx ih =>
      obtain ⟨n, hn⟩ := ih (before ++ [x])
      rw [Text.replace_cons_of_no_match hx]
      exact ⟨n, by simpa using hn⟩

theorem NoReference.normal (hnames : ∀ name ∈ m.names, IsName name) {text : List Char}
    (h : NoReference text) : Normal (Step m) text := by
  intro v hstep
  obtain ⟨before, name, content, rest, hmem⟩ := hstep
  have hname := hnames name (List.mem_map_of_mem hmem)
  apply h name hname.ne_nil hname.close_not_mem
  exact ⟨before, rest, List.append_assoc _ _ _⟩

section

variable (hnames : ∀ name ∈ m.names, IsName name)

include hnames

theorem step_diamond : Diamond (Step m) := by
  intro text u v hu hv
  generalize htext : text = t at hv
  obtain ⟨before, name, content, rest, hmem⟩ := hu
  obtain ⟨before', name', content', rest', hmem'⟩ := hv
  have hname := hnames name (List.mem_map_of_mem hmem)
  have hname' := hnames name' (List.mem_map_of_mem hmem')
  obtain ⟨rfl, rfl, rfl⟩ | ⟨between, rfl, rfl⟩ | ⟨between, rfl, rfl⟩ :=
    two_references hname hname' htext
  · left
    rw [eq_content hmem hmem']
  · right
    refine ⟨before ++ (content ++ between) ++ (content' ++ rest'), ?_, ?_⟩
    · have h := Step.mk (before ++ (content ++ between)) name' content' rest' hmem'
      simpa using h
    · have h := Step.mk before name content (between ++ (content' ++ rest')) hmem
      simpa using h
  · right
    refine ⟨before' ++ (content' ++ between) ++ (content ++ rest), ?_, ?_⟩
    · have h := Step.mk before' name' content' (between ++ (content ++ rest)) hmem'
      simpa using h
    · have h := Step.mk (before' ++ (content' ++ between)) name content rest hmem
      simpa using h

/-- A text has at most one expansion. -/
theorem Expansion.unique {sql s t : List Char} (hs : Expansion m sql s) (ht : Expansion m sql t) :
    s = t := by
  obtain ⟨⟨_, hsteps⟩, hnone⟩ := hs
  obtain ⟨⟨_, hsteps'⟩, hnone'⟩ := ht
  exact hsteps.unique (step_diamond hnames) (hnone.normal hnames) (hnone'.normal hnames) hsteps'

/-! ### Reached aliases -/

/-- The reference of an undefined alias stays. -/
theorem Step.undefined_stays {u v x : List Char} (hstep : Step m u v) (hx : IsName x)
    (hundefined : x ∉ m.names) (h : aliasPattern x <:+: u) : aliasPattern x <:+: v := by
  generalize ht : u = t at hstep
  obtain ⟨before, name, content, rest, hmem⟩ := hstep
  obtain ⟨before', rest', rfl⟩ := h
  have hname := hnames name (List.mem_map_of_mem hmem)
  rw [List.append_assoc] at ht
  obtain ⟨-, rfl, -⟩ | ⟨between, rfl, rfl⟩ | ⟨between, rfl, rfl⟩ := two_references hx hname ht
  · exact absurd (List.mem_map_of_mem hmem) hundefined
  · exact ⟨before', between ++ (content ++ rest), by simp⟩
  · exact ⟨before ++ (content ++ between), rest', by simp⟩

theorem undefined_stays {n : ℕ} {u v x : List Char} (hsteps : Steps (Step m) n u v) (hx : IsName x)
    (hundefined : x ∉ m.names) (h : aliasPattern x <:+: u) : aliasPattern x <:+: v := by
  induction hsteps with
  | zero => exact h
  | succ hstep _ ih => exact ih (hstep.undefined_stays hnames hx hundefined h)

omit hnames in
/-- What a content mentions stands in the text when the content is put in. -/
theorem exists_step {sql u x y : List Char} (hy : y ∈ (m.graph sql).refs x)
    (hx : aliasPattern x <:+: u) : ∃ v, Step m u v ∧ aliasPattern y <:+: v := by
  obtain ⟨-, content, hmem, hcontent⟩ := hy
  obtain ⟨before, rest, rfl⟩ := hx
  rw [List.append_assoc]
  refine ⟨_, .mk before x content rest hmem, ?_⟩
  exact hcontent.trans ((List.prefix_append _ _).isInfix.trans (List.suffix_append _ _).isInfix)

omit hnames in
theorem exists_run {sql u x y : List Char} (h : (m.graph sql).Reaches (some x) y)
    (hx : aliasPattern x <:+: u) :
    ∃ k v, Steps (Step m) (k + 1) u v ∧ aliasPattern y <:+: v := by
  induction h with
  | mention hy =>
      obtain ⟨v, hstep, hv⟩ := exists_step hy hx
      exact ⟨0, v, .succ hstep (.zero v), hv⟩
  | step _ hy ih =>
      obtain ⟨k, v, hsteps, hv⟩ := ih
      obtain ⟨w, hstep, hw⟩ := exists_step hy hv
      exact ⟨k + 1, w, hsteps.trans (.succ hstep (.zero w)), hw⟩

omit hnames in
theorem exists_run_of_reached {sql x : List Char} (h : (m.graph sql).Reaches none x) :
    ∃ k v, Steps (Step m) k sql v ∧ aliasPattern x <:+: v := by
  induction h with
  | mention hx => exact ⟨0, sql, .zero sql, hx.2⟩
  | step _ hy ih =>
      obtain ⟨k, v, hsteps, hv⟩ := ih
      obtain ⟨w, hstep, hw⟩ := exists_step hy hv
      exact ⟨k + 1, w, hsteps.trans (.succ hstep (.zero w)), hw⟩

/-- A text that mentions an alias which reaches itself has no expansion. -/
theorem not_cyclic {sql s u x : List Char} {n : ℕ} (hs : NoReference s)
    (hsteps : Steps (Step m) n u s) (hx : aliasPattern x <:+: u) :
    ¬(m.graph sql).Reaches (some x) x := by
  intro hcycle
  induction n using Nat.strong_induction_on generalizing u with
  | _ n ih =>
      obtain ⟨k, v, hround, hv⟩ := exists_run hcycle hx
      obtain ⟨rest, hn, hafter⟩ := hsteps.after_steps (step_diamond hnames) (hs.normal hnames) hround
      exact ih rest (by omega) hafter hv

/-- In a text with an expansion every reached alias is defined and reaches
no cycle. -/
theorem Expansion.reached {sql s x : List Char} (h : Expansion m sql s)
    (hreach : (m.graph sql).Reaches none x) :
    x ∈ m.names ∧ ¬(m.graph sql).Reaches (some x) x := by
  obtain ⟨⟨n, hsteps⟩, hs⟩ := h
  have hname : IsName x := by
    cases hreach with
    | mention hx => exact hx.1
    | step _ hx => exact hx.1
  obtain ⟨k, v, hrun, hv⟩ := exists_run_of_reached hreach
  obtain ⟨rest, -, hafter⟩ := hsteps.after_steps (step_diamond hnames) (hs.normal hnames) hrun
  constructor
  · by_contra hundefined
    have hstays := undefined_stays hnames hafter hname hundefined hv
    exact hs x hname.ne_nil hname.close_not_mem hstays
  · exact not_cyclic hnames hs hafter hv

end

/-! ### The loop -/

/-- What has happened so far is a run, and every alias was put in at most once. -/
structure Substituting (m : AliasManager) (sql : List Char) (st : Substitution) : Prop where
  run : ∃ n, Steps (Step m) n sql st.result
  nodup : st.substituted.Nodup
  defined : ∀ name ∈ st.substituted, name ∈ m.names

/-- Everything a visit can do. -/
theorem visitAlias_cases (st : Substitution) (entry : List Char × List Char) :
    (¬aliasPattern entry.1 <:+: st.result ∧ visitAlias st entry = .ok st) ∨
    (aliasPattern entry.1 <:+: st.result ∧ entry.1 ∈ st.substituted ∧
      ∃ err, visitAlias st entry = .error (err, st)) ∨
    (aliasPattern entry.1 <:+: st.result ∧ entry.1 ∉ st.substituted ∧
      visitAlias st entry = .ok ⟨Text.replace (aliasPattern entry.1) entry.2 st.result,
        entry.1 :: st.substituted, true⟩) := by
  by_cases hfound : aliasPattern entry.1 <:+: st.result
  · by_cases hmarked : entry.1 ∈ st.substituted
    · exact .inr (.inl ⟨hfound, hmarked, by simp [visitAlias, hfound, hmarked]⟩)
    · exact .inr (.inr ⟨hfound, hmarked, by simp [visitAlias, hfound, hmarked]⟩)
  · exact .inl ⟨hfound, by simp [visitAlias, hfound]⟩

theorem Substituting.visit {sql : List Char} {st : Substitution} (h : Substituting m sql st)
    {entry : List Char × List Char} (hentry : entry ∈ m.aliases)
    (hnew : entry.1 ∉ st.substituted) :
    Substituting m sql ⟨Text.replace (aliasPattern entry.1) entry.2 st.result,
      entry.1 :: st.substituted, true⟩ where
  run := by
    obtain ⟨n, hn⟩ := h.run
    obtain ⟨k, hk⟩ := replace_steps hentry [] st.result
    exact ⟨n + k, hn.trans hk⟩
  nodup := List.nodup_cons.mpr ⟨hnew, h.nodup⟩
  defined := by
    intro name hname
    obtain rfl | hname := List.mem_cons.mp hname
    · exact List.mem_map_of_mem hentry
    · exact h.defined name hname

/-- The state in which the loop stands still. -/
def substitutionOf : Except (SynError × Substitution) Substitution → Substitution
  | .error err => err.2
  | .ok st => st

/-- What a round has done when it comes through. -/
structure Round (order : List (List Char × List Char)) (st st' : Substitution) : Prop where
  grows : st'.changed = true → st.changed = true ∨ st.substituted.length < st'.substituted.length
  monotone : st.substituted.length ≤ st'.substituted.length
  idle : st'.changed = false →
    st' = st ∧ ∀ entry ∈ order, ¬aliasPattern entry.1 <:+: st.result

theorem round_of_fold {sql : List Char} {order : List (List Char × List Char)}
    (horder : ∀ entry ∈ order, entry ∈ m.aliases) {st : Substitution}
    (h : Substituting m sql st) :
    Substituting m sql (substitutionOf (order.foldlM visitAlias st)) ∧
      ∀ st', order.foldlM visitAlias st = .ok st' → Round order st st' := by
  induction order generalizing st with
  | nil =>
      refine ⟨h, fun st' hst' => ?_⟩
      cases hst'
      exact ⟨.inl, le_rfl, fun _ => ⟨rfl, by simp⟩⟩
  | cons entry order ih =>
      have hrest : ∀ e ∈ order, e ∈ m.aliases :=
        fun e he => horder e (List.mem_cons_of_mem entry he)
      rw [List.foldlM_cons]
      obtain ⟨habsent, hvisit⟩ | ⟨-, -, err, hvisit⟩ | ⟨-, hnew, hvisit⟩ := visitAlias_cases st entry
      · rw [hvisit]
        obtain ⟨hsub, hround⟩ := ih hrest h
        refine ⟨hsub, fun st' hst' => ?_⟩
        obtain ⟨hgrows, hmonotone, hidle⟩ := hround st' hst'
        refine ⟨hgrows, hmonotone, fun hunchanged => ?_⟩
        obtain ⟨hsame, hnone⟩ := hidle hunchanged
        exact ⟨hsame, List.forall_mem_cons.mpr ⟨habsent, hnone⟩⟩
      · rw [hvisit]
        exact ⟨h, fun st' hst' => by cases hst'⟩
      · rw [hvisit]
        obtain ⟨hsub, hround⟩ := ih hrest (h.visit (horder entry List.mem_cons_self) hnew)
        refine ⟨hsub, fun st' hst' => ?_⟩
        obtain ⟨-, hmonotone, hidle⟩ := hround st' hst'
        have hlength : st.substituted.length < st'.substituted.length := hmonotone
        refine ⟨fun _ => .inr hlength, hlength.le, fun hunchanged => ?_⟩
        rw [(hidle hunchanged).1] at hunchanged
        cases hunchanged

theorem Substituting.length_le {sql : List Char} {st : Substitution} (h : Substituting m sql st) :
    st.substituted.length ≤ m.names.length :=
  (List.subperm_of_subset h.nodup h.defined).length_le

/-- The loop stops, and when it ends well no alias is left. -/
theorem aliasRounds_stops (it : m.Iteration) {sql : List Char} {fuel : ℕ} {st : Substitution}
    (h : Substituting m sql st) (hfuel : m.names.length < fuel + st.substituted.length) :
    ∃ outcome, aliasRounds it.order fuel st = some outcome ∧
      Substituting m sql (substitutionOf outcome) ∧
      ∀ st', outcome = .ok st' → ∀ entry ∈ m.aliases, ¬aliasPattern entry.1 <:+: st'.result := by
  induction fuel generalizing st with
  | zero =>
      have hle := h.length_le
      omega
  | succ fuel ih =>
      have hbegin : Substituting m sql { st with changed := false } := ⟨h.run, h.nodup, h.defined⟩
      obtain ⟨hsub, hround⟩ :=
        round_of_fold (fun entry hentry => it.perm.mem_iff.mp hentry) hbegin
      rw [aliasRounds, visitAliases]
      cases hvisit : it.order.foldlM visitAlias { st with changed := false } with
      | error err =>
          rw [hvisit] at hsub
          exact ⟨.error err, rfl, hsub, fun st' hst' => by cases hst'⟩
      | ok st' =>
          have hsub : Substituting m sql st' := by
            rw [hvisit] at hsub
            exact hsub
          obtain ⟨hgrows, -, hidle⟩ := hround st' hvisit
          cases hchanged : st'.changed with
          | true =>
              have hlonger : st.substituted.length < st'.substituted.length :=
                (hgrows hchanged).resolve_left (by simp)
              obtain ⟨outcome, hrounds, hrest⟩ := ih hsub (by omega)
              exact ⟨outcome, by simpa [hchanged] using hrounds, hrest⟩
          | false =>
              obtain ⟨hsame, hnone⟩ := hidle hchanged
              refine ⟨.ok st', by simp [hchanged], hsub, fun st'' hst'' => ?_⟩
              cases hst''
              rw [hsame]
              exact fun entry hentry => hnone entry (it.perm.mem_iff.mpr hentry)

/-! ### The check at the end -/

theorem captureAt_eq_some_iff {text name : List Char} :
    captureAt text = some name ↔ name ≠ [] ∧ '}' ∉ name ∧ aliasPattern name <+: text := by
  constructor
  · intro h
    unfold captureAt at h
    split at h
    · rename_i rest
      dsimp only at h
      split_ifs at h with hmatch
      obtain ⟨hne, closing, hclosing⟩ := hmatch
      cases h
      refine ⟨hne, ?_, closing, ?_⟩
      · intro hmem
        simpa using List.mem_takeWhile_imp hmem
      · have hrest := List.takeWhile_append_dropWhile (p := (· ≠ '}')) (l := rest)
        rw [← hclosing] at hrest
        rw [aliasPattern_append]
        exact congrArg (fun text => '{' :: '{' :: text) hrest
    · cases h
  · rintro ⟨hne, hclose, rest, rfl⟩
    have hall : ∀ c ∈ name, decide (c ≠ '}') = true := by
      intro c hc
      simpa using fun heq : c = '}' => hclose (heq ▸ hc)
    rw [aliasPattern_append, captureAt, List.takeWhile_append_of_pos hall,
      List.dropWhile_append_of_pos hall]
    simp [hne]

theorem captures_eq_none_iff {text : List Char} : captures text = none ↔ NoReference text := by
  induction text with
  | nil =>
      refine ⟨fun _ name _ _ h => ?_, fun _ => rfl⟩
      exact aliasPattern_ne_nil name (List.infix_nil.mp h)
  | cons c text ih =>
      rw [captures]
      constructor
      · intro h name hne hclose hin
        cases hcapture : captureAt (c :: text) with
        | some name' => simp [hcapture] at h
        | none =>
            rw [hcapture] at h
            obtain hpre | hin := List.infix_cons_iff.mp hin
            · rw [captureAt_eq_some_iff.mpr ⟨hne, hclose, hpre⟩] at hcapture
              cases hcapture
            · exact ih.mp h name hne hclose hin
      · intro h
        cases hcapture : captureAt (c :: text) with
        | some name =>
            obtain ⟨hne, hclose, hpre⟩ := captureAt_eq_some_iff.mp hcapture
            exact absurd hpre.isInfix (h name hne hclose)
        | none =>
            refine ih.mpr fun name hne hclose hin => h name hne hclose ?_
            exact hin.trans (List.suffix_cons c text).isInfix

namespace AliasManager

theorem substituting_start (m : AliasManager) (sql : List Char) :
    Substituting m sql ⟨sql, [], false⟩ :=
  ⟨⟨0, .zero sql⟩, List.nodup_nil, by simp⟩

theorem rounds_enough (it : m.Iteration) (sql : List Char) :
    ∃ outcome, aliasRounds it.order (it.order.length + 1) ⟨sql, [], false⟩ = some outcome ∧
      Substituting m sql (substitutionOf outcome) ∧
      ∀ st', outcome = .ok st' → ∀ entry ∈ m.aliases, ¬aliasPattern entry.1 <:+: st'.result := by
  apply aliasRounds_stops it (substituting_start m sql)
  have hlength : it.order.length = m.aliases.length := it.perm.length_eq
  show (m.aliases.map Prod.fst).length < it.order.length + 1 + 0
  rw [List.length_map]
  omega

/-- The substitution ends in an error or in an expansion. -/
theorem substituteAliases_cases (it : m.Iteration) (sql : List Char) :
    (∃ err, substituteAliases it sql = some (.error err)) ∨
      ∃ s, substituteAliases it sql = some (.ok s) ∧ Expansion m sql s := by
  obtain ⟨outcome, hrounds, hsub, -⟩ := rounds_enough it sql
  unfold substituteAliases
  rw [hrounds]
  cases outcome with
  | error err => exact .inl ⟨err.1, rfl⟩
  | ok st =>
      dsimp only [validateNoUnresolvedAliases]
      cases hcaptures : captures st.result with
      | some name => exact .inl ⟨_, rfl⟩
      | none => exact .inr ⟨st.result, rfl, hsub.run, captures_eq_none_iff.mp hcaptures⟩

end AliasManager

/-! ### Expansion of pieces -/

def AliasManager.WellFormed (m : AliasManager) : Prop :=
  ∀ entry ∈ m.aliases, Macros.WellFormed entry.2

/-- An expansion has no brace. -/
theorem Expands.plain {pieces : List Piece} {text : List Char} (h : Expands m pieces text) :
    '{' ∉ text := by
  induction h with
  | nil => simp
  | @char c plain _ _ _ ih => simpa using ⟨plain.1.symm, ih⟩
  | ref _ _ _ ihInner ih => simpa using ⟨ihInner, ih⟩

theorem Expands.expansion {pieces : List Piece} {text : List Char} (h : Expands m pieces text) :
    Expansion m (spell pieces) text := by
  refine ⟨?_, fun name _ _ hin => h.plain (hin.subset List.mem_cons_self)⟩
  induction h with
  | nil => exact ⟨0, .zero _⟩
  | @char c plain pieces text _ ih =>
      obtain ⟨n, hn⟩ := ih
      have hcontext := steps_context hn [c] []
      exact ⟨n, by simpa [Piece.spell] using hcontext⟩
  | @ref name isName content pieces inner text hmem _ _ ihInner ih =>
      obtain ⟨k, hk⟩ := ihInner
      obtain ⟨n, hn⟩ := ih
      have hinner := steps_context hk [] (spell pieces)
      have hrest := steps_context hn inner []
      have hsteps := Steps.succ (.mk [] name (spell content) (spell pieces) hmem)
        (hinner.trans (by simpa using hrest))
      exact ⟨_, hsteps⟩

/-- A text without references is its own expansion. -/
theorem Expands.of_no_reference {pieces : List Piece} (h : references pieces = []) :
    Expands m pieces (spell pieces) := by
  induction pieces with
  | nil => exact .nil
  | cons piece pieces ih =>
      cases piece with
      | char c plain => exact .char (ih h)
      | ref name isName => cases h

theorem exists_reference {pieces : List Piece} (h : references pieces ≠ []) :
    ∃ before name isName rest, pieces = before ++ .ref name isName :: rest := by
  induction pieces with
  | nil => exact absurd rfl h
  | cons piece pieces ih =>
      cases piece with
      | char c plain =>
          obtain ⟨before, name, isName, rest, rfl⟩ := ih h
          exact ⟨.char c plain :: before, name, isName, rest, rfl⟩
      | ref name isName => exact ⟨[], name, isName, pieces, rfl⟩

/-- Rewriting finds the recursive expansion. -/
theorem Expansion.expands (hnames : ∀ name ∈ m.names, IsName name) (hm : m.WellFormed)
    {pieces : List Piece} {text : List Char} (h : Expansion m (spell pieces) text) :
    Expands m pieces text := by
  obtain ⟨⟨n, hsteps⟩, hnone⟩ := h
  induction n using Nat.strong_induction_on generalizing pieces with
  | _ n ih =>
      by_cases hreferences : references pieces = []
      · have hdone : NoReference (spell pieces) := by
          intro name _ hclose hin
          rw [aliasPattern_infix_spell hclose, hreferences] at hin
          cases hin
        rw [← hsteps.eq_of_normal (hdone.normal hnames)]
        exact .of_no_reference hreferences
      · obtain ⟨before, name, isName, rest, rfl⟩ := exists_reference hreferences
        have hspell : spell (before ++ .ref name isName :: rest) =
            spell before ++ (aliasPattern name ++ spell rest) := by
          simp [Piece.spell]
        rw [hspell] at hsteps
        by_cases hdefined : name ∈ m.names
        · obtain ⟨⟨_, content⟩, hmem, rfl⟩ := List.mem_map.mp hdefined
          obtain ⟨inside, rfl⟩ := hm _ hmem
          obtain ⟨k, rfl, hafter⟩ := hsteps.after_step (step_diamond hnames)
            (hnone.normal hnames) (.mk (spell before) _ _ (spell rest) hmem)
          rw [← spell_append, ← spell_append] at hafter
          obtain ⟨s, t, rfl, hs, ht⟩ := (ih k (by omega) hafter).split
          obtain ⟨u, v, rfl, hu, hv⟩ := ht.split
          exact hs.append (.ref hmem hu hv)
        · have hfound : aliasPattern name <:+: spell before ++ (aliasPattern name ++ spell rest) :=
            ⟨spell before, spell rest, List.append_assoc _ _ _⟩
          have hstays := undefined_stays hnames hsteps isName hdefined hfound
          exact absurd hstays (hnone name isName.ne_nil isName.close_not_mem)

/-! ### Soundness -/

namespace AliasManager

/-- Under every order of the aliases the loop puts each alias in at most once
and stops; what it returns is the full expansion, and there is none for a text
that reaches a cycle or an undefined alias. -/
theorem substituteAliases_sound (m : AliasManager) (hnames : ∀ name ∈ m.names, IsName name)
    (template : List Piece) (it : m.Iteration) :
    (∃ outcome,
      aliasRounds it.order (it.order.length + 1) ⟨spell template, [], false⟩ = some outcome ∧
        (substitutionOf outcome).substituted.Nodup ∧
        ∀ name ∈ (substitutionOf outcome).substituted, name ∈ m.names) ∧
    (∀ s, substituteAliases it (spell template) = some (.ok s) →
      NoReference s ∧ Expansion m (spell template) s ∧
        (∀ t, Expansion m (spell template) t → t = s) ∧
        (m.WellFormed → Expands m template s)) ∧
    ∀ x, (m.graph (spell template)).Reaches none x →
      x ∉ m.names ∨ (m.graph (spell template)).Reaches (some x) x →
        ∃ err, substituteAliases it (spell template) = some (.error err) := by
  refine ⟨?_, ?_, ?_⟩
  · obtain ⟨outcome, hrounds, hsub, -⟩ := rounds_enough it (spell template)
    exact ⟨outcome, hrounds, hsub.nodup, hsub.defined⟩
  · intro s hs
    obtain ⟨err, herr⟩ | ⟨t, ht, hexpansion⟩ := substituteAliases_cases it (spell template)
    · rw [hs] at herr
      cases herr
    · rw [hs] at ht
      cases ht
      exact ⟨hexpansion.2, hexpansion, fun t ht => ht.unique hnames hexpansion,
        hexpansion.expands hnames⟩
  · intro x hreach hbad
    obtain herr | ⟨t, -, hexpansion⟩ := substituteAliases_cases it (spell template)
    · exact herr
    · obtain ⟨hdefined, hfree⟩ := hexpansion.reached hnames hreach
      obtain hundefined | hcycle := hbad
      · exact absurd hdefined hundefined
      · exact absurd hcycle hfree

/-- Two aliases, the first one of which mentions the second one twice. -/
def chain : AliasManager :=
  (new.addAlias ['a'] (aliasPattern ['b'] ++ 'x' :: aliasPattern ['b'])).addAlias ['b'] ['y']

theorem chain_expansion :
    substituteAliases ⟨chain.aliases, .refl _⟩ (spell [.ref ['a'] (by decide)]) =
        some (.ok ['y', 'x', 'y']) ∧
      Expansion chain (spell [.ref ['a'] (by decide)]) ['y', 'x', 'y'] := by
  have hrun : substituteAliases ⟨chain.aliases, .refl _⟩ (spell [.ref ['a'] (by decide)]) =
      some (.ok ['y', 'x', 'y']) := rfl
  exact ⟨hrun, ((substituteAliases_sound chain (by decide) _ _).2.1 _ hrun).2.1⟩

end AliasManager

end SqlxData.Macros
