import Mathlib.Tactic

/-!
Texts that refer to other texts by name, and a worker that replaces a name by
the references of its text. It marks what it has replaced and gives up when a
marked name comes back. In an acyclic graph it gives up under no order of the
names exactly when no name is mentioned by two texts.
-/

namespace SqlxData

/-- The references of a root text and of each named text. -/
structure ReferenceGraph (ν : Type) where
  root : Set ν
  refs : ν → Set ν

namespace ReferenceGraph

variable {ν : Type} (G : ReferenceGraph ν)

/-- `none` is the root text. -/
def mentions : Option ν → Set ν
  | none => G.root
  | some a => G.refs a

/-- A name that is met on the way down from a text. -/
inductive Reaches (text : Option ν) : ν → Prop
  | mention {x : ν} : x ∈ G.mentions text → Reaches text x
  | step {x y : ν} : Reaches text x → y ∈ G.refs x → Reaches text y

def Acyclic : Prop := ∀ x, ¬G.Reaches (some x) x

/-- The texts that matter: the root and the names reached from it. -/
def Used : Option ν → Prop
  | none => True
  | some x => G.Reaches none x

def SinglyMentioned : Prop :=
  ∀ c u v, G.Used u → G.Used v → c ∈ G.mentions u → c ∈ G.mentions v → u = v

variable {G}

theorem Reaches.trans {text : Option ν} {x y : ν} (hx : G.Reaches text x)
    (hy : G.Reaches (some x) y) : G.Reaches text y := by
  induction hy with
  | mention hy => exact hx.step hy
  | step _ hz ih => exact ih.step hz

/-- The last text on the way. -/
theorem Reaches.mentioned {text : Option ν} {y : ν} (h : G.Reaches text y) :
    ∃ v, y ∈ G.mentions v ∧ (v = text ∨ ∃ x, v = some x ∧ G.Reaches text x) := by
  cases h with
  | mention hy => exact ⟨text, hy, .inl rfl⟩
  | @step x _ hx hy => exact ⟨some x, hy, .inr ⟨x, rfl, hx⟩⟩

/-- The first text on the way. -/
theorem Reaches.first {x y : ν} (h : G.Reaches (some x) y) :
    ∃ m ∈ G.refs x, m = y ∨ G.Reaches (some m) y := by
  induction h with
  | mention hy => exact ⟨_, hy, .inl rfl⟩
  | @step z y _ hy ih =>
      obtain ⟨m, hm, rfl | hreach⟩ := ih
      · exact ⟨m, hm, .inr (.mention hy)⟩
      · exact ⟨m, hm, .inr (hreach.step hy)⟩

/-- From a used text only used names are reached. -/
theorem Used.reaches {text : Option ν} (htext : G.Used text) {x : ν} (h : G.Reaches text x) :
    G.Reaches none x := by
  cases text with
  | none => exact h
  | some a => exact Reaches.trans htext h

/-- References that lead downwards only make no cycle. -/
theorem acyclic_of_rank (rank : ν → ℕ) (h : ∀ x, ∀ y ∈ G.refs x, rank y < rank x) : G.Acyclic := by
  have hdown (x y : ν) (hreach : G.Reaches (some x) y) : rank y < rank x := by
    induction hreach with
    | mention hy => exact h x _ hy
    | step _ hz ih => exact (h _ _ hz).trans ih
  exact fun x hreach => (hdown x x hreach).false

/-! ### The worker -/

/-- The names that stand in the text, and those that were replaced. -/
structure Front (ν : Type) where
  present : Set ν
  marked : Set ν

variable (G) in
def start : Front ν := ⟨G.root, ∅⟩

variable (G) in
open Classical in
/-- Replace a name; `none` when it was replaced before. -/
noncomputable def visit (s : Front ν) (a : ν) : Option (Front ν) :=
  if a ∉ s.present then some s
  else if a ∈ s.marked then none
  else some ⟨(s.present \ {a}) ∪ G.refs a, insert a s.marked⟩

theorem visit_of_absent {s : Front ν} {a : ν} (h : a ∉ s.present) : G.visit s a = some s :=
  if_pos h

theorem visit_of_marked {s : Front ν} {a : ν} (hpresent : a ∈ s.present) (hmarked : a ∈ s.marked) :
    G.visit s a = none := by
  simp [visit, hpresent, hmarked]

theorem visit_of_present {s : Front ν} {a : ν} (hpresent : a ∈ s.present) (hnew : a ∉ s.marked) :
    G.visit s a = some ⟨(s.present \ {a}) ∪ G.refs a, insert a s.marked⟩ := by
  simp [visit, hpresent, hnew]

/-- Everything a visit can do. -/
theorem visit_cases (s : Front ν) (a : ν) :
    (a ∉ s.present ∧ G.visit s a = some s) ∨
    (a ∈ s.present ∧ a ∈ s.marked ∧ G.visit s a = none) ∨
    (a ∈ s.present ∧ a ∉ s.marked ∧
      G.visit s a = some ⟨(s.present \ {a}) ∪ G.refs a, insert a s.marked⟩) := by
  by_cases hpresent : a ∈ s.present
  · by_cases hmarked : a ∈ s.marked
    · exact .inr (.inl ⟨hpresent, hmarked, visit_of_marked hpresent hmarked⟩)
    · exact .inr (.inr ⟨hpresent, hmarked, visit_of_present hpresent hmarked⟩)
  · exact .inl ⟨hpresent, visit_of_absent hpresent⟩

/-- The texts whose references stand or stood in the text. -/
def Opened (s : Front ν) : Option ν → Prop
  | none => True
  | some a => a ∈ s.marked

/-! ### Names mentioned once -/

/-- What stands in the text comes from an opened text and leads to no name
that was replaced. -/
structure Tidy (G : ReferenceGraph ν) (s : Front ν) : Prop where
  origin : ∀ n ∈ s.present, ∃ u, Opened s u ∧ n ∈ G.mentions u
  ahead : ∀ n ∈ s.present, n ∉ s.marked ∧ ∀ b ∈ s.marked, ¬G.Reaches (some n) b
  used : ∀ b ∈ s.marked, G.Reaches none b

theorem tidy_start : Tidy G G.start where
  origin := fun _ hn => ⟨none, trivial, hn⟩
  ahead := fun _ _ => ⟨id, fun _ hb => hb.elim⟩
  used := fun _ hb => hb.elim

theorem Tidy.used_of_opened {s : Front ν} (h : Tidy G s) {u : Option ν} (hu : Opened s u) :
    G.Used u := by
  cases u with
  | none => trivial
  | some a => exact h.used a hu

theorem Tidy.present_used {s : Front ν} (h : Tidy G s) {n : ν} (hn : n ∈ s.present) :
    G.Reaches none n := by
  obtain ⟨u, hu, hmention⟩ := h.origin n hn
  exact (h.used_of_opened hu).reaches (.mention hmention)

/-- A visit of a tidy text does not give up and leaves a tidy text. -/
theorem Tidy.visit (hacyclic : G.Acyclic) (hsingle : G.SinglyMentioned) {s : Front ν}
    (h : Tidy G s) (a : ν) : ∃ s', G.visit s a = some s' ∧ Tidy G s' := by
  obtain ⟨-, hvisit⟩ | ⟨hpresent, hmarked, -⟩ | ⟨hpresent, hmarked, hvisit⟩ := visit_cases s a
  · exact ⟨s, hvisit, h⟩
  · exact absurd hmarked (h.ahead a hpresent).1
  · refine ⟨_, hvisit, ?_, ?_, ?_⟩
    · rintro n (⟨hn, -⟩ | hn)
      · obtain ⟨u, hu, hmention⟩ := h.origin n hn
        refine ⟨u, ?_, hmention⟩
        cases u with
        | none => trivial
        | some b => exact Set.mem_insert_of_mem a hu
      · exact ⟨some a, Set.mem_insert a s.marked, hn⟩
    · rintro n (⟨hn, hne⟩ | hn)
      · refine ⟨?_, ?_⟩
        · rintro (rfl | hn')
          · exact hne rfl
          · exact (h.ahead n hn).1 hn'
        · rintro b (rfl | hb) hreach
          · -- The text that mentions `a` last on the way is the one that brought `a` in.
            obtain ⟨v, hv, hway⟩ := hreach.mentioned
            obtain ⟨u, hu, hmention⟩ := h.origin b hpresent
            have hn' := h.present_used hn
            have hvused : G.Used v := by
              obtain rfl | ⟨x, rfl, hx⟩ := hway
              · exact hn'
              · exact hn'.trans hx
            have huv := hsingle b u v (h.used_of_opened hu) hvused hmention hv
            subst huv
            obtain rfl | ⟨x, rfl, hx⟩ := hway
            · exact (h.ahead n hn).1 hu
            · exact (h.ahead n hn).2 x hu hx
          · exact (h.ahead n hn).2 b hb hreach
      · refine ⟨?_, ?_⟩
        · rintro (rfl | hn')
          · exact hacyclic n (.mention hn)
          · exact (h.ahead a hpresent).2 n hn' (.mention hn)
        · rintro b (rfl | hb) hreach
          · exact hacyclic b (Reaches.trans (.mention hn) hreach)
          · exact (h.ahead a hpresent).2 b hb (Reaches.trans (.mention hn) hreach)
    · rintro b (rfl | hb)
      · exact h.present_used hpresent
      · exact h.used b hb

/-! ### A name mentioned twice -/

/-- What an opened text mentions is replaced or still to be replaced. -/
def Complete (G : ReferenceGraph ν) (s : Front ν) : Prop :=
  ∀ u, Opened s u → ∀ n ∈ G.mentions u, n ∈ s.marked ∨ n ∈ s.present

theorem complete_start : Complete G G.start := by
  intro u hu n hn
  cases u with
  | none => exact .inr hn
  | some a => exact hu.elim

theorem Complete.visit {s s' : Front ν} {a : ν} (h : Complete G s)
    (hvisit : G.visit s a = some s') : Complete G s' := by
  obtain ⟨-, heq⟩ | ⟨-, -, heq⟩ | ⟨-, -, heq⟩ := visit_cases s a
  · rw [heq] at hvisit
    cases hvisit
    exact h
  · rw [heq] at hvisit
    cases hvisit
  · rw [heq] at hvisit
    cases hvisit
    intro u hu n hn
    have hold : Opened s u → n ∈ insert a s.marked ∨ n ∈ (s.present \ {a}) ∪ G.refs a := by
      intro hu
      obtain hn | hn := h u hu n hn
      · exact .inl (Set.mem_insert_of_mem a hn)
      · by_cases hna : n = a
        · exact .inl (.inl hna)
        · exact .inr (.inl ⟨hn, hna⟩)
    cases u with
    | none => exact hold trivial
    | some b =>
        obtain rfl | hb := hu
        · exact .inr (.inr hn)
        · exact hold hb

/-- The first name on a way that was not replaced stands in the text. -/
theorem Complete.exists_present {s : Front ν} (h : Complete G s) {a : ν} (hreach : G.Reaches none a)
    (ha : a ∉ s.marked) : ∃ n ∈ s.present, n = a ∨ G.Reaches (some n) a := by
  induction hreach with
  | @mention a hmention => exact ⟨a, (h none trivial a hmention).resolve_left ha, .inl rfl⟩
  | @step x a _ hmention ih =>
      by_cases hx : x ∈ s.marked
      · exact ⟨a, (h (some x) hx a hmention).resolve_left ha, .inl rfl⟩
      · obtain ⟨n, hn, rfl | hreach⟩ := ih hx
        · exact ⟨n, hn, .inr (.mention hmention)⟩
        · exact ⟨n, hn, .inr (hreach.step hmention)⟩

/-- A replaced name stands in the text again or is going to. -/
def Returning (G : ReferenceGraph ν) (c : ν) (s : Front ν) : Prop :=
  c ∈ s.marked ∧ ∃ n ∈ s.present, n = c ∨ G.Reaches (some n) c

/-- From there no visit leads away. -/
theorem Returning.visit {c : ν} {s s' : Front ν} {a : ν} (h : Returning G c s)
    (hvisit : G.visit s a = some s') : Returning G c s' := by
  obtain ⟨hc, n, hn, hway⟩ := h
  obtain ⟨-, heq⟩ | ⟨-, -, heq⟩ | ⟨-, hmarked, heq⟩ := visit_cases s a
  · rw [heq] at hvisit
    cases hvisit
    exact ⟨hc, n, hn, hway⟩
  · rw [heq] at hvisit
    cases hvisit
  · rw [heq] at hvisit
    cases hvisit
    refine ⟨Set.mem_insert_of_mem a hc, ?_⟩
    by_cases hna : n = a
    · subst hna
      obtain rfl | hreach := hway
      · exact absurd hc hmarked
      · obtain ⟨m, hm, hway⟩ := hreach.first
        exact ⟨m, .inr hm, hway⟩
    · exact ⟨n, .inl ⟨hn, hna⟩, hway⟩

/-- The names from the root down to a text. -/
inductive Way (G : ReferenceGraph ν) : List ν → Option ν → Prop
  | root : Way G [] none
  | step {names : List ν} {u : Option ν} {x : ν} :
      Way G names u → x ∈ G.mentions u → Way G (names ++ [x]) (some x)

theorem exists_way {x : ν} (h : G.Reaches none x) : ∃ names, Way G names (some x) := by
  induction h with
  | mention hx => exact ⟨_, Way.root.step hx⟩
  | step _ hy ih =>
      obtain ⟨names, hway⟩ := ih
      exact ⟨_, hway.step hy⟩

/-- Every name of a way leads on to what its last text mentions. -/
theorem Way.reaches {names : List ν} {u : Option ν} (h : Way G names u) {z : ν}
    (hz : z ∈ G.mentions u) : ∀ y ∈ names, G.Reaches (some y) z := by
  induction h generalizing z with
  | root => simp
  | @step names u x _ hx ih =>
      intro y hy
      obtain hy | hy := List.mem_append.mp hy
      · exact (ih hx y hy).step hz
      · obtain rfl := List.mem_singleton.mp hy
        exact .mention hz

theorem Way.used {names : List ν} {u : Option ν} (h : Way G names u) :
    G.Used u ∧ ∀ y ∈ names, G.Reaches none y := by
  induction h with
  | root => exact ⟨trivial, by simp⟩
  | @step names u x _ hx ih =>
      have hreach : G.Reaches none x := ih.1.reaches (.mention hx)
      refine ⟨hreach, fun y hy => ?_⟩
      obtain hy | hy := List.mem_append.mp hy
      · exact ih.2 y hy
      · rwa [List.mem_singleton.mp hy]

theorem Way.not_mem (hacyclic : G.Acyclic) {names : List ν} {u : Option ν} (h : Way G names u)
    {z : ν} (hz : z ∈ G.mentions u) : z ∉ names :=
  fun hmem => hacyclic z (h.reaches hz z hmem)

theorem Way.nodup (hacyclic : G.Acyclic) {names : List ν} {u : Option ν} (h : Way G names u) :
    names.Nodup := by
  induction h with
  | root => exact List.nodup_nil
  | @step names u x hway hx ih =>
      rw [← List.concat_eq_append]
      exact ih.concat (hway.not_mem hacyclic hx)

variable (G) in
noncomputable def visits (names : List ν) (s : Front ν) : Option (Front ν) :=
  names.foldlM G.visit s

/-- The names of a way are replaced one after the other. -/
theorem Way.visits (hacyclic : G.Acyclic) {names : List ν} {u : Option ν} (h : Way G names u) :
    ∃ s, G.visits names G.start = some s ∧ Complete G s ∧ s.marked = {y | y ∈ names} ∧
      Opened s u := by
  induction h with
  | root => exact ⟨G.start, rfl, complete_start, by simp [start], trivial⟩
  | @step names u x hway hx ih =>
      obtain ⟨s, hrun, hcomplete, hmarked, hopened⟩ := ih
      have hnew : x ∉ s.marked := by
        rw [hmarked]
        exact hway.not_mem hacyclic hx
      have hpresent : x ∈ s.present := (hcomplete u hopened x hx).resolve_left hnew
      obtain ⟨habsent, -⟩ | ⟨-, hmem, -⟩ | ⟨-, -, hvisit⟩ := visit_cases s x
      · exact absurd hpresent habsent
      · exact absurd hmem hnew
      · refine ⟨_, ?_, hcomplete.visit hvisit, ?_, Set.mem_insert x s.marked⟩
        · rw [ReferenceGraph.visits, List.foldlM_append]
          change (G.visits names G.start).bind _ = _
          rw [hrun]
          simp [hvisit]
        · ext y
          simp [hmarked, or_comm]

/-- A way to a name past a second text that mentions it: the name is replaced
before that text is opened. -/
theorem Way.returning (hacyclic : G.Acyclic) {names : List ν} {v : Option ν} (h : Way G names v)
    {a c : ν} (hv : c ∈ G.mentions v) (ha : G.Reaches none a) (hc : c ∈ G.refs a)
    (hpast : a ∉ names) :
    ∃ s, G.visits (names ++ [c]) G.start = some s ∧ Returning G c s := by
  obtain ⟨s, hrun, hcomplete, hmarked, hopened⟩ := (h.step hv).visits hacyclic
  refine ⟨s, hrun, hopened, ?_⟩
  have hane : a ∉ s.marked := by
    rw [hmarked]
    intro hmem
    obtain hmem | hmem := List.mem_append.mp hmem
    · exact hpast hmem
    · rw [List.mem_singleton.mp hmem] at hc
      exact hacyclic c (.mention hc)
  obtain ⟨n, hn, rfl | hreach⟩ := hcomplete.exists_present ha hane
  · exact ⟨n, hn, .inr (.mention hc)⟩
  · exact ⟨n, hn, .inr (hreach.step hc)⟩

/-- A way does not pass a name that leads nowhere near its end. -/
theorem Way.passes {names : List ν} {b a : ν} (h : Way G names (some b)) (hne : a ≠ b)
    (hreach : ¬G.Reaches (some a) b) : a ∉ names := by
  cases h with
  | @step names u x hway hx =>
      intro hmem
      obtain hmem | hmem := List.mem_append.mp hmem
      · exact hreach (hway.reaches hx a hmem)
      · exact hne (List.mem_singleton.mp hmem)

/-- Where a name is mentioned by two texts, some order brings it back. -/
theorem exists_returning (hacyclic : G.Acyclic) (hmany : ¬G.SinglyMentioned) :
    ∃ names c s, names.Nodup ∧ (∀ y ∈ names, G.Reaches none y) ∧
      G.visits names G.start = some s ∧ Returning G c s := by
  have hpast (c a : ν) (names : List ν) (v : Option ν) (hway : Way G names v)
      (hv : c ∈ G.mentions v) (ha : G.Reaches none a) (hc : c ∈ G.refs a) (hpast : a ∉ names) :
      ∃ names c s, names.Nodup ∧ (∀ y ∈ names, G.Reaches none y) ∧
        G.visits names G.start = some s ∧ Returning G c s := by
    obtain ⟨s, hrun, hreturn⟩ := hway.returning hacyclic hv ha hc hpast
    have hlonger := hway.step hv
    exact ⟨names ++ [c], c, s, hlonger.nodup hacyclic, hlonger.used.2, hrun, hreturn⟩
  unfold SinglyMentioned at hmany
  push Not at hmany
  obtain ⟨c, u, v, hu, hv, hcu, hcv, hne⟩ := hmany
  cases u with
  | none =>
      cases v with
      | none => exact absurd rfl hne
      | some b => exact hpast c b [] none .root hcu hv hcv List.not_mem_nil
  | some a =>
      cases v with
      | none => exact hpast c a [] none .root hcv hu hcu List.not_mem_nil
      | some b =>
          have hab : a ≠ b := fun h => hne (congrArg some h)
          obtain ⟨wayA, hwayA⟩ := exists_way hu
          obtain ⟨wayB, hwayB⟩ := exists_way hv
          by_cases hreach : G.Reaches (some a) b
          · have hback : ¬G.Reaches (some b) a := fun h => hacyclic a (hreach.trans h)
            exact hpast c b wayA _ hwayA hcu hv hcv (hwayA.passes hab.symm hback)
          · exact hpast c a wayB _ hwayB hcv hu hcu (hwayB.passes hab hreach)

end ReferenceGraph

end SqlxData
