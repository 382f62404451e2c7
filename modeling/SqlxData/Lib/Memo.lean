import Mathlib.Logic.Function.Basic

/-!
Computations that keep results in caches. An entry can be gone at any moment,
so a computation is run against every way of losing entries between its reads
and writes. If each entry it writes is right, and it returns the same with a
right entry as without, then the caches cannot be seen from outside.
-/

namespace SqlxData.Memo

/-- A computation over caches named by `ι`, with keys of `K` and the values of
`V i` in the cache `i`. -/
inductive Prog {ι : Type} (K : Type) (V : ι → Type) (α : Type)
  | done (a : α)
  | get (i : ι) (key : K) (next : Option (V i) → Prog K V α)
  | insert (i : ι) (key : K) (value : V i) (next : Prog K V α)

/-- What the caches hold. -/
abbrev Store {ι : Type} (K : Type) (V : ι → Type) := (i : ι) → K → Option (V i)

variable {ι K : Type} {V : ι → Type} {α β : Type}

namespace Prog

def bind : Prog K V α → (α → Prog K V β) → Prog K V β
  | done a, f => f a
  | get i key next, f => .get i key fun found => (next found).bind f
  | insert i key value next, f => .insert i key value (next.bind f)

instance : Monad (Prog K V) where
  pure := done
  bind := bind

/-- The result when the caches are always empty. -/
def uncached : Prog K V α → α
  | done a => a
  | get _ _ next => (next none).uncached
  | insert _ _ _ next => next.uncached

end Prog

/-! ### Runs -/

namespace Store

def empty : Store K V := fun _ _ => none

/-- Entries of `s` may be missing in `s'`. -/
def Evicted (s s' : Store K V) : Prop := ∀ i key value, s' i key = some value → s i key = some value

variable [DecidableEq ι] [DecidableEq K]

def put (s : Store K V) (i : ι) (key : K) (value : V i) : Store K V :=
  Function.update s i (Function.update (s i) key (some value))

end Store

variable [DecidableEq ι] [DecidableEq K]

/-- `p` can return `a` from the store `s` and leave the store `s'`; entries can
be lost before each of its steps and behind the last. -/
inductive Runs : Store K V → Prog K V α → α → Store K V → Prop
  | done {s s' a} : s.Evicted s' → Runs s (.done a) a s'
  | get {s s₁ s' i key next a} : s.Evicted s₁ → Runs s₁ (next (s₁ i key)) a s' →
      Runs s (.get i key next) a s'
  | insert {s s₁ s' i key value next a} : s.Evicted s₁ → Runs (s₁.put i key value) next a s' →
      Runs s (.insert i key value next) a s'

/-- Computations one after the other, with their results. -/
inductive RunsAll : Store K V → List (Prog K V α) → List α → Store K V → Prop
  | nil {s} : RunsAll s [] [] s
  | cons {s s₁ s' p ps a as} : Runs s p a s₁ → RunsAll s₁ ps as s' → RunsAll s (p :: ps) (a :: as) s'

theorem exists_runs (s : Store K V) (p : Prog K V α) : ∃ a s', Runs s p a s' := by
  have hkept : ∀ s : Store K V, s.Evicted s := fun _ _ _ _ h => h
  induction p generalizing s with
  | done a => exact ⟨a, s, .done (hkept s)⟩
  | get i key next ih =>
      obtain ⟨a, s', h⟩ := ih (s i key) s
      exact ⟨a, s', .get (hkept s) h⟩
  | insert i key value next ih =>
      obtain ⟨a, s', h⟩ := ih (s.put i key value)
      exact ⟨a, s', .insert (hkept s) h⟩

theorem exists_runsAll (s : Store K V) (ps : List (Prog K V α)) : ∃ as s', RunsAll s ps as s' := by
  induction ps generalizing s with
  | nil => exact ⟨[], s, .nil⟩
  | cons p ps ih =>
      obtain ⟨a, s₁, h⟩ := exists_runs s p
      obtain ⟨as, s', h'⟩ := ih s₁
      exact ⟨a :: as, s', .cons h h'⟩

/-! ### Right entries -/

/-- The entries are right. -/
def Store.Right (right : (i : ι) → K → V i → Prop) (s : Store K V) : Prop :=
  ∀ i key value, s i key = some value → right i key value

/-- With or without right entries, `p` returns `a` and writes right entries. -/
def Prog.Returns (right : (i : ι) → K → V i → Prop) : Prog K V α → α → Prop
  | done b, a => b = a
  | get i key next, a => (next none).Returns right a ∧
      ∀ value, right i key value → (next (some value)).Returns right a
  | insert i key value next, a => right i key value ∧ next.Returns right a

section Right

variable {right : (i : ι) → K → V i → Prop} {s s' : Store K V} {p : Prog K V α} {a b : α}

omit [DecidableEq ι] [DecidableEq K] in
theorem Store.right_empty : (Store.empty : Store K V).Right right := by
  intro i key value h
  cases h

omit [DecidableEq ι] [DecidableEq K] in
theorem Store.Right.evicted (h : s.Right right) (hlost : s.Evicted s') : s'.Right right :=
  fun i key value hvalue => h i key value (hlost i key value hvalue)

theorem Store.Right.put (h : s.Right right) {i : ι} {key : K} {value : V i}
    (hvalue : right i key value) : (s.put i key value).Right right := by
  intro j key' value' hfound
  by_cases hj : j = i
  · subst hj
    rw [Store.put, Function.update_self] at hfound
    by_cases hkey : key' = key
    · subst hkey
      rw [Function.update_self] at hfound
      exact Option.some.inj hfound ▸ hvalue
    · rw [Function.update_of_ne hkey] at hfound
      exact h j key' value' hfound
  · rw [Store.put, Function.update_of_ne hj] at hfound
    exact h j key' value' hfound

omit [DecidableEq ι] [DecidableEq K] in
theorem Prog.Returns.uncached (h : p.Returns right a) : p.uncached = a := by
  induction p with
  | done b => exact h
  | get i key next ih => exact ih none h.1
  | insert i key value next ih => exact ih h.2

omit [DecidableEq ι] [DecidableEq K] in
theorem Prog.Returns.bind {f : α → Prog K V β} {c : β} (h : p.Returns right a)
    (hf : (f a).Returns right c) : (p >>= f).Returns right c := by
  induction p with
  | done b =>
      obtain rfl : b = a := h
      exact hf
  | get i key next ih => exact ⟨ih none h.1, fun value hvalue => ih (some value) (h.2 value hvalue)⟩
  | insert i key value next ih => exact ⟨h.1, ih h.2⟩

/-- From right entries, every run returns the result and leaves right entries. -/
theorem Prog.Returns.runs (h : p.Returns right a) (hs : s.Right right) (hrun : Runs s p b s') :
    b = a ∧ s'.Right right := by
  induction hrun with
  | done hlost => exact ⟨h, hs.evicted hlost⟩
  | @get s s₁ s' i key next b hlost hrun ih =>
      have hs₁ := hs.evicted hlost
      refine ih ?_ hs₁
      cases hfound : s₁ i key with
      | none => exact h.1
      | some value => exact h.2 value (hs₁ i key value hfound)
  | insert hlost hrun ih => exact ih h.2 ((hs.evicted hlost).put h.1)

/-- Computations that return the same with and without right entries return,
one after the other, what they return with empty caches. -/
theorem RunsAll.results {ps : List (Prog K V α)} {as : List α}
    (h : ∀ p ∈ ps, p.Returns right p.uncached) (hs : s.Right right) (hrun : RunsAll s ps as s') :
    as = ps.map Prog.uncached ∧ s'.Right right := by
  induction hrun with
  | nil => exact ⟨rfl, hs⟩
  | @cons s s₁ s' p ps a as hp _ ih =>
      obtain ⟨rfl, hs₁⟩ := (h p List.mem_cons_self).runs hs hp
      obtain ⟨rfl, hs'⟩ := ih (fun p hp => h p (List.mem_cons_of_mem _ hp)) hs₁
      exact ⟨rfl, hs'⟩

end Right

end SqlxData.Memo
