import SqlxData.Lib.BoolText
import Mathlib.Data.List.Perm.Basic

/-!
What depends on the order in which parts are put together. Lists written one
behind the other give the same list in every order exactly when any two of them
commute (`flatMap_perm_iff`). Conditions joined by AND without parentheses run
into each other where they have a top-level OR; on one row each of them has one
of six effects on the run it continues, and the counts of these effects say
whether every order lets the row pass alike (`passes_perm_iff`).
-/

namespace JoinOrder

/-! ### Lists -/

section Lists

variable {α β : Type}

theorem exists_perm_cons_cons {a b : α} {xs : List α} (ha : a ∈ xs) (hb : b ∈ xs) (hne : a ≠ b) :
    ∃ rest, (a :: b :: rest).Perm xs := by
  obtain ⟨front, back, rfl⟩ := List.append_of_mem ha
  have hmem : b ∈ front ++ back := by
    have h := List.perm_middle.mem_iff.mp hb
    exact (List.mem_cons.mp h).resolve_left hne.symm
  obtain ⟨front', back', hsplit⟩ := List.append_of_mem hmem
  refine ⟨front' ++ back', (List.Perm.cons a ?_).trans List.perm_middle.symm⟩
  rw [hsplit]
  exact List.perm_middle.symm

/-- The lists agree in every order exactly when any two of them commute. -/
theorem flatMap_perm_iff (g : α → List β) (xs : List α) :
    (∀ ys : List α, ys.Perm xs → ys.flatMap g = xs.flatMap g) ↔
      ∀ a ∈ xs, ∀ b ∈ xs, g a ++ g b = g b ++ g a := by
  constructor
  · intro h a ha b hb
    by_cases hab : a = b
    · rw [hab]
    -- the two in front, in both orders; what follows cancels
    obtain ⟨rest, hperm⟩ := exists_perm_cons_cons ha hb hab
    have heq := (h _ hperm).trans (h _ ((List.Perm.swap a b rest).trans hperm)).symm
    simp only [List.flatMap_cons, ← List.append_assoc] at heq
    exact List.append_cancel_right heq
  · intro h ys hperm
    have hcommute : ∀ a ∈ ys, ∀ b ∈ ys, g a ++ g b = g b ++ g a := fun a ha b hb =>
      h a (hperm.mem_iff.mp ha) b (hperm.mem_iff.mp hb)
    clear h
    induction hperm with
    | nil => rfl
    | cons x _ ih =>
        rw [List.flatMap_cons, List.flatMap_cons,
          ih fun a ha b hb => hcommute a (by simp [ha]) b (by simp [hb])]
    | swap x y rest =>
        simp only [List.flatMap_cons, ← List.append_assoc]
        rw [hcommute y (by simp) x (by simp)]
    | trans hfirst _ ih ih' =>
        rw [ih hcommute]
        exact ih' fun a ha b hb =>
          hcommute a (hfirst.mem_iff.mpr ha) b (hfirst.mem_iff.mpr hb)

theorem flatMap_eq_nil_iff_of_perm {xs ys : List α} (h : xs.Perm ys) (g : α → List β) :
    xs.flatMap g = [] ↔ ys.flatMap g = [] := by
  rw [← List.length_eq_zero_iff, (h.flatMap_right g).length_eq, List.length_eq_zero_iff]

/-- Where every element brings at most one part, the parts can be put in any
order. -/
theorem exists_perm_flatMap {g : α → List β} (hg : ∀ a, (g a).length ≤ 1) {xs : List α}
    {bs : List β} (h : bs.Perm (xs.flatMap g)) :
    ∃ ys : List α, ys.Perm xs ∧ ys.flatMap g = bs := by
  induction bs generalizing xs with
  | nil => exact ⟨xs, List.Perm.refl xs, List.nil_perm.mp h⟩
  | cons b bs ih =>
      obtain ⟨a, ha, hb⟩ := List.mem_flatMap.mp (h.mem_iff.mp List.mem_cons_self)
      have hsingle : g a = [b] := by
        have hlength := hg a
        cases hga : g a with
        | nil => simp [hga] at hb
        | cons c cs =>
            rw [hga] at hlength hb
            obtain rfl := List.eq_nil_of_length_eq_zero (by simpa using hlength)
            rw [List.mem_singleton.mp hb]
      obtain ⟨front, back, rfl⟩ := List.append_of_mem ha
      have hfront : ((front ++ a :: back).flatMap g).Perm (b :: (front ++ back).flatMap g) := by
        rw [List.flatMap_append, List.flatMap_cons, hsingle, List.flatMap_append]
        exact List.perm_middle
      obtain ⟨ys, hys, rfl⟩ := ih (h.trans hfront).cons_inv
      exact ⟨a :: ys, (hys.cons a).trans List.perm_middle.symm, by
        rw [List.flatMap_cons, hsingle, List.singleton_append]⟩

end Lists

/-! ### Effects on the open run -/

/-- A row and the text read so far: an alternative has let the row pass, or
the operands of the run that is still open all hold, or one of them does not. -/
inductive Run
  | passed
  | holding
  | failing
  deriving DecidableEq, Repr

/-- The row passes if the text ends here. -/
def Run.Passes (r : Run) : Prop := r ≠ .failing

instance (r : Run) : Decidable r.Passes := inferInstanceAs (Decidable (r ≠ .failing))

/-- What a condition does on one row, by its alternatives that hold. -/
inductive Effect
  /-- A single alternative, which holds: the open run goes on. -/
  | keeps
  /-- Neither the first alternative nor the last one holds. -/
  | blocks
  /-- Only the first alternative holds: it completes a run that holds. -/
  | completes
  /-- Only the last alternative holds: a new run begins. -/
  | begins
  /-- The first and the last alternative hold. -/
  | renews
  /-- An alternative in between holds. -/
  | passes
  deriving DecidableEq, Repr

def Effect.act : Effect → Run → Run
  | _, .passed => .passed
  | .keeps, r => r
  | .blocks, _ => .failing
  | .completes, .holding => .passed
  | .completes, .failing => .failing
  | .begins, _ => .holding
  | .renews, .holding => .passed
  | .renews, .failing => .holding
  | .passes, _ => .passed

def runThrough (r : Run) (es : List Effect) : Run := es.foldl (fun r e => e.act r) r

@[simp] theorem runThrough_nil (r : Run) : runThrough r [] = r := rfl

@[simp] theorem runThrough_cons (r : Run) (e : Effect) (es : List Effect) :
    runThrough r (e :: es) = runThrough (e.act r) es := rfl

theorem runThrough_append (r : Run) (es es' : List Effect) :
    runThrough r (es ++ es') = runThrough (runThrough r es) es' := by
  simp [runThrough]

@[simp] theorem act_passed (e : Effect) : e.act .passed = .passed := by
  cases e <;> rfl

@[simp] theorem runThrough_passed (es : List Effect) : runThrough .passed es = .passed := by
  induction es with
  | nil => rfl
  | cons e es ih => rw [runThrough_cons, act_passed, ih]

@[simp] theorem passes_passed : Run.passed.Passes := by simp [Run.Passes]

@[simp] theorem passes_holding : Run.holding.Passes := by simp [Run.Passes]

@[simp] theorem not_passes_failing : ¬Run.failing.Passes := by simp [Run.Passes]

/-- No order of the effects matters: the row passes in each of them, or in
none. From a run that holds it passes in each when there are no more conditions
that block than conditions that renew; from one that fails there have to be
fewer, or none that blocks and one that begins. -/
def Indifferent : Run → List Effect → Prop
  | .passed, _ => True
  | .holding, es =>
      .passes ∈ es ∨ es.count .blocks ≤ es.count .renews ∨ ∀ e ∈ es, e = .keeps ∨ e = .blocks
  | .failing, es =>
      .passes ∈ es ∨ es.count .blocks < es.count .renews ∨ (.blocks ∉ es ∧ .begins ∈ es) ∨
        ∀ e ∈ es, e = .keeps ∨ e = .blocks ∨ e = .completes

/-! #### Orders that pass -/

theorem runThrough_of_passes_mem {es : List Effect} (h : .passes ∈ es) (r : Run) :
    runThrough r es = .passed := by
  induction es generalizing r with
  | nil => simp at h
  | cons e es ih =>
      rcases List.mem_cons.mp h with rfl | h
      · cases r <;> simp [Effect.act]
      · exact ih h _

/-- While there are enough conditions that renew, no block is the last word. -/
theorem passes_of_count (es : List Effect) :
    (es.count .blocks ≤ es.count .renews → (runThrough .holding es).Passes) ∧
      (es.count .blocks < es.count .renews → (runThrough .failing es).Passes) := by
  induction es with
  | nil => simp
  | cons e es ih =>
      obtain ⟨hholding, hfailing⟩ := ih
      refine ⟨fun h => ?_, fun h => ?_⟩
      · cases e <;> simp only [runThrough_cons, Effect.act, runThrough_passed, passes_passed]
        case keeps => exact hholding (by simpa using h)
        case begins => exact hholding (by simpa using h)
        case blocks =>
          simp at h
          exact hfailing (by omega)
      · cases e <;> simp only [runThrough_cons, Effect.act, runThrough_passed, passes_passed]
        case keeps => exact hfailing (by simpa using h)
        case completes => exact hfailing (by simpa using h)
        case begins =>
          simp at h
          exact hholding (by omega)
        case renews =>
          simp at h
          exact hholding (by omega)
        case blocks =>
          simp at h
          exact hfailing (by omega)

theorem passes_of_begins {es : List Effect} (hblocks : .blocks ∉ es) (hbegins : .begins ∈ es) :
    (runThrough .failing es).Passes := by
  have hholding : ∀ rest, Effect.blocks ∉ rest → (runThrough .holding rest).Passes := by
    intro rest hrest
    refine (passes_of_count rest).1 ?_
    rw [List.count_eq_zero.mpr hrest]
    exact Nat.zero_le _
  induction es with
  | nil => simp at hbegins
  | cons e es ih =>
      simp only [List.mem_cons, not_or] at hblocks hbegins
      cases e <;> simp only [runThrough_cons, Effect.act, runThrough_passed, passes_passed]
      case keeps => exact ih hblocks.2 (hbegins.resolve_left (by simp))
      case completes => exact ih hblocks.2 (hbegins.resolve_left (by simp))
      case blocks => exact absurd rfl hblocks.1
      case begins => exact hholding es hblocks.2
      case renews => exact hholding es hblocks.2

/-- Without an OR the open run holds as long as nothing blocks. -/
theorem passes_iff_of_single {es : List Effect} (h : ∀ e ∈ es, e = .keeps ∨ e = .blocks) :
    (runThrough .holding es).Passes ↔ .blocks ∉ es := by
  have hfailing : ∀ rest : List Effect, (∀ e ∈ rest, e = .keeps ∨ e = .blocks) →
      runThrough .failing rest = .failing := by
    intro rest hrest
    induction rest with
    | nil => rfl
    | cons e rest ih =>
        rw [List.forall_mem_cons] at hrest
        rcases hrest.1 with rfl | rfl <;> exact ih hrest.2
  induction es with
  | nil => simp
  | cons e es ih =>
      rw [List.forall_mem_cons] at h
      rcases h.1 with rfl | rfl
      · simpa [Effect.act] using ih h.2
      · simp [Effect.act, hfailing es h.2]

theorem runThrough_failing {es : List Effect}
    (h : ∀ e ∈ es, e = .keeps ∨ e = .blocks ∨ e = .completes) :
    runThrough .failing es = .failing := by
  induction es with
  | nil => rfl
  | cons e es ih =>
      rw [List.forall_mem_cons] at h
      rcases h.1 with rfl | rfl | rfl <;> exact ih h.2

/-! #### Orders that do not -/

/-- Some order of the effects leaves the row out. -/
def Refusable (r : Run) (es : List Effect) : Prop :=
  ∃ es', es'.Perm es ∧ runThrough r es' = .failing

/-- The order starts with a given effect. -/
theorem Refusable.of_mem {r : Run} {e : Effect} {es : List Effect} (he : e ∈ es)
    (h : Refusable (e.act r) (es.erase e)) : Refusable r es := by
  obtain ⟨es', hperm, hrun⟩ := h
  exact ⟨e :: es', (hperm.cons e).trans (List.perm_cons_erase he).symm, hrun⟩

/-- The order is found from the front: a renewal is spent on a run that fails,
and a block follows it. -/
theorem refusable_of_count (n : ℕ) : ∀ es : List Effect, es.length = n → .passes ∉ es →
    (es.count .renews < es.count .blocks → Refusable .holding es) ∧
    (es.count .renews ≤ es.count .blocks → (.begins ∈ es → .blocks ∈ es) →
      Refusable .failing es) := by
  induction n with
  | zero =>
      intro es hlength _
      obtain rfl := List.length_eq_zero_iff.mp hlength
      exact ⟨fun h => by simp at h, fun _ _ => ⟨[], List.Perm.refl _, rfl⟩⟩
  | succ n ih =>
      intro es hlength hpasses
      have hnext : ∀ e ∈ es, (es.erase e).length = n ∧ Effect.passes ∉ es.erase e := by
        intro e he
        refine ⟨?_, fun h => hpasses (List.mem_of_mem_erase h)⟩
        rw [List.length_erase_of_mem he, hlength]
        rfl
      have hrest : ∀ e ∈ es, _ := fun e he => ih (es.erase e) (hnext e he).1 (hnext e he).2
      refine ⟨fun hcount => ?_, fun hcount hblocks => ?_⟩
      · have hblocks : Effect.blocks ∈ es := List.count_pos_iff.mp (by omega)
        by_cases hbegins : Effect.begins ∈ es
        · refine Refusable.of_mem hbegins ((hrest _ hbegins).1 ?_)
          simpa using hcount
        · refine Refusable.of_mem hblocks ((hrest _ hblocks).2 ?_ ?_)
          · simp
            omega
          · exact fun h => absurd (List.mem_of_mem_erase h) hbegins
      · -- conditions that leave a failing run alone come first
        by_cases hidle : ∃ e ∈ es, e = .keeps ∨ e = .completes
        · obtain ⟨e, he, hkind⟩ := hidle
          have hact : e.act .failing = .failing := by rcases hkind with rfl | rfl <;> rfl
          refine Refusable.of_mem he ?_
          rw [hact]
          refine (hrest e he).2 ?_ fun h => ?_
          · rcases hkind with rfl | rfl <;> simpa [List.count_erase] using hcount
          · have hmem := hblocks (List.mem_of_mem_erase h)
            refine (List.mem_erase_of_ne ?_).mpr hmem
            rcases hkind with rfl | rfl <;> simp
        by_cases hrenews : Effect.renews ∈ es
        · refine Refusable.of_mem hrenews ((hrest _ hrenews).1 ?_)
          have hpos := List.count_pos_iff.mpr hrenews
          simp
          omega
        by_cases hbegins : Effect.begins ∈ es
        · refine Refusable.of_mem hbegins ((hrest _ hbegins).1 ?_)
          have hzero := List.count_eq_zero.mpr hrenews
          have hpos := List.count_pos_iff.mpr (hblocks hbegins)
          simp
          omega
        · refine ⟨es, List.Perm.refl _, runThrough_failing fun e he => ?_⟩
          cases e with
          | keeps => simp
          | blocks => simp
          | completes => simp
          | begins => exact absurd he hbegins
          | renews => exact absurd he hrenews
          | passes => exact absurd he hpasses

/-- Some order passes as soon as an effect can end in a run that holds. -/
theorem exists_passing {r : Run} {e : Effect} {es : List Effect} (he : e ∈ es)
    (h : (r = .holding ∧ e = .completes) ∨ e = .begins ∨ e = .renews) :
    ∃ es', es'.Perm es ∧ (runThrough r es').Passes := by
  rcases h with ⟨rfl, rfl⟩ | hlast
  · exact ⟨_, (List.perm_cons_erase he).symm, by simp [Effect.act]⟩
  · refine ⟨es.erase e ++ [e], ?_, ?_⟩
    · exact List.perm_append_singleton _ _ |>.trans (List.perm_cons_erase he).symm
    · rw [runThrough_append]
      rcases hlast with rfl | rfl <;> cases runThrough r _ <;>
        simp [Effect.act, Run.Passes]

/-- The exact condition on one row. -/
theorem passes_perm_iff (r : Run) (es : List Effect) :
    (∀ es', es'.Perm es → ((runThrough r es').Passes ↔ (runThrough r es).Passes)) ↔
      Indifferent r es := by
  constructor
  · intro h
    -- one order that passes and one that does not cannot both be there
    have hboth : ∀ {e}, e ∈ es → ((r = .holding ∧ e = .completes) ∨ e = .begins ∨ e = .renews) →
        ¬Refusable r es := by
      rintro e he hkind ⟨refused, hrefused, hfailing⟩
      obtain ⟨passing, hpassing, hpasses⟩ := exists_passing he hkind
      have hall := (h _ hrefused).mpr ((h _ hpassing).mp hpasses)
      rw [hfailing] at hall
      exact not_passes_failing hall
    cases r with
    | passed => trivial
    | holding =>
        by_contra hnot
        simp only [Indifferent, not_or, Nat.not_le, not_forall] at hnot
        obtain ⟨hpasses, hcount, e, he, hkeeps, hblocks⟩ := hnot
        refine hboth he ?_ ((refusable_of_count _ es rfl hpasses).1 hcount)
        cases e with
        | keeps => exact absurd rfl hkeeps
        | blocks => exact absurd rfl hblocks
        | passes => exact absurd he hpasses
        | completes => simp
        | begins => simp
        | renews => simp
    | failing =>
        by_contra hnot
        simp only [Indifferent, not_or, Nat.not_lt, not_and, not_forall] at hnot
        obtain ⟨hpasses, hcount, hbegins, e, he, hkeeps, hblocks, hcompletes⟩ := hnot
        refine hboth he ?_ ((refusable_of_count _ es rfl hpasses).2 hcount fun hmem =>
          by_contra fun hnone => hbegins hnone hmem)
        cases e with
        | keeps => exact absurd rfl hkeeps
        | blocks => exact absurd rfl hblocks
        | passes => exact absurd he hpasses
        | completes => exact absurd rfl hcompletes
        | begins => simp
        | renews => simp
  · intro h es' hperm
    have hcount : ∀ e, es'.count e = es.count e := fun e => hperm.count_eq e
    have hmem : ∀ e, e ∈ es' ↔ e ∈ es := fun e => hperm.mem_iff
    cases r with
    | passed => simp
    | holding =>
        rcases h with h | h | h
        · rw [runThrough_of_passes_mem h, runThrough_of_passes_mem ((hmem _).mpr h)]
        · exact iff_of_true ((passes_of_count es').1 (by rw [hcount, hcount]; exact h))
            ((passes_of_count es).1 h)
        · rw [passes_iff_of_single h, passes_iff_of_single fun e he => h e ((hmem e).mp he), hmem]
    | failing =>
        rcases h with h | h | h | h
        · rw [runThrough_of_passes_mem h, runThrough_of_passes_mem ((hmem _).mpr h)]
        · exact iff_of_true ((passes_of_count es').2 (by rw [hcount, hcount]; exact h))
            ((passes_of_count es).2 h)
        · exact iff_of_true
            (passes_of_begins (fun hb => h.1 ((hmem _).mp hb)) ((hmem _).mpr h.2))
            (passes_of_begins h.1 h.2)
        · rw [runThrough_failing h, runThrough_failing fun e he => h e ((hmem e).mp he)]

/-- Conditions without a top-level OR can come in any order. -/
theorem indifferent_of_single {es : List Effect} (h : ∀ e ∈ es, e = .keeps ∨ e = .blocks)
    (r : Run) : Indifferent r es := by
  cases r with
  | passed => trivial
  | holding => exact Or.inr (Or.inr h)
  | failing =>
      refine Or.inr (Or.inr (Or.inr fun e he => ?_))
      rcases h e he with hkeeps | hblocks
      · exact Or.inl hkeeps
      · exact Or.inr (Or.inl hblocks)

/-- The same for elements with at most one effect each. -/
theorem passes_flatMap_perm_iff {α : Type} {g : α → List Effect} (hg : ∀ a, (g a).length ≤ 1)
    (r : Run) (xs : List α) :
    (∀ ys : List α, ys.Perm xs →
      ((runThrough r (ys.flatMap g)).Passes ↔ (runThrough r (xs.flatMap g)).Passes)) ↔
    Indifferent r (xs.flatMap g) := by
  rw [← passes_perm_iff]
  constructor
  · intro h es hperm
    obtain ⟨ys, hys, rfl⟩ := exists_perm_flatMap hg hperm
    exact h ys hys
  · exact fun h ys hys => h _ (hys.flatMap_right g)

/-! ### Conditions -/

section Conditions

open BoolText BoolText.Formula ThreeValued

variable {α : Type} (value : α → Truth)

instance (f : Formula α) : Decidable (Holds value f) :=
  inferInstanceAs (Decidable (f.eval value = .holds))

/-- The alternatives behind an OR: one in between lets the row pass, the last
one leaves its run open. -/
def lastRun : List Bool → Run
  | [] => .holding
  | [b] => if b then .holding else .failing
  | b :: b' :: bs => if b then .passed else lastRun (b' :: bs)

def effectOf : List Bool → Effect
  | [] => .keeps
  | [b] => if b then .keeps else .blocks
  | b :: b' :: bs =>
      match b, lastRun (b' :: bs) with
      | _, .passed => .passes
      | true, .holding => .renews
      | true, .failing => .completes
      | false, .holding => .begins
      | false, .failing => .blocks

def effect (f : Formula α) : Effect :=
  effectOf (f.alternatives.map fun a => decide (Holds value a))

/-- The runs still to come, with the open one in front. -/
def Run.Continues : Run → List (List (Formula α)) → Prop
  | .passed, _ => True
  | .holding, runs => ContinuedRunsHold value True runs
  | .failing, runs => ContinuedRunsHold value False runs

variable {value}

theorem continues_glue_lastRun (alternatives : List (Formula α)) (hne : alternatives ≠ [])
    (y : List (Formula α)) (ys : List (List (Formula α))) :
    SomeRunHolds value (glue (alternatives.map ([·])) (y :: ys)) ↔
      (lastRun (alternatives.map fun a => decide (Holds value a))).Continues value (y :: ys) := by
  induction alternatives with
  | nil => exact absurd rfl hne
  | cons a alternatives ih =>
      cases alternatives with
      | nil =>
          by_cases ha : Holds value a <;>
            simp [glue, lastRun, Run.Continues, ContinuedRunsHold, ha]
      | cons a' alternatives =>
          have hrest := ih (by simp)
          simp only [List.map_cons] at hrest ⊢
          rw [glue, someRunHolds_cons, hrest]
          by_cases ha : Holds value a <;> simp [lastRun, Run.Continues, ha]

/-- A condition acts on the open run by its effect. -/
theorem continues_glue (r : Run) (f : Formula α) (y : List (Formula α))
    (ys : List (List (Formula α))) :
    r.Continues value (glue (f.alternatives.map ([·])) (y :: ys)) ↔
      ((effect value f).act r).Continues value (y :: ys) := by
  have hne := f.alternatives_ne_nil
  rw [effect]
  generalize f.alternatives = alternatives at hne ⊢
  match alternatives, hne with
  | [a], _ =>
      by_cases ha : Holds value a <;> cases r <;>
        simp [glue, effectOf, Effect.act, Run.Continues, ContinuedRunsHold, ha]
  | a :: a' :: rest, _ =>
      have hlast := @continues_glue_lastRun _ value (a' :: rest) (by simp) y ys
      simp only [List.map_cons] at hlast ⊢
      rw [glue]
      cases hrest : lastRun (decide (Holds value a') :: rest.map fun a => decide (Holds value a)) <;>
        rw [hrest] at hlast <;> by_cases ha : Holds value a <;> cases r <;>
        simp [effectOf, Effect.act, Run.Continues, ContinuedRunsHold, ha, hlast, hrest]

theorem continues_weave (r : Run) (fs : List (Formula α)) :
    r.Continues value (weave fs) ↔ (runThrough r (fs.map (effect value))).Passes := by
  induction fs generalizing r with
  | nil => cases r <;> simp [weave, Run.Continues, ContinuedRunsHold]
  | cons f fs ih =>
      obtain ⟨y, ys, hys⟩ := List.exists_cons_of_ne_nil (weave_ne_nil fs)
      rw [weave, hys, continues_glue, ← hys, ih, List.map_cons, runThrough_cons]

/-- Conditions joined by AND let the row pass when their effects leave no
failing run behind. -/
theorem someRunHolds_weave_iff (fs : List (Formula α)) :
    SomeRunHolds value (weave fs) ↔ (runThrough .holding (fs.map (effect value))).Passes := by
  rw [← continues_weave]
  obtain ⟨y, ys, hys⟩ := List.exists_cons_of_ne_nil (weave_ne_nil fs)
  simp [hys, Run.Continues, ContinuedRunsHold]

/-- A condition without a top-level OR holds or blocks. -/
theorem effect_of_single {f : Formula α} (hf : f.alternatives = [f]) :
    effect value f = .keeps ∨ effect value f = .blocks := by
  rw [effect, hf, List.map_singleton, effectOf]
  split <;> simp

end Conditions

end JoinOrder
