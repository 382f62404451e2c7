import SqlxData.Lib.Memo
import Mathlib.Algebra.BigOperators.Group.Finset.Piecewise

/-!
Threads that share caches with statistics. A read or a write of a cache and the
record of it in the statistics are steps of their own, so that the steps of
other threads can come in between.
-/

namespace SqlxData.Memo

/-- What is recorded about one use of a key. -/
inductive Access
  | hit
  | miss
  deriving DecidableEq

/-- What a thread still has to do. -/
inductive Thread {ι : Type} (K : Type) (V : ι → Type) (α : Type)
  | done (a : α)
  | lookup (i : ι) (key : K) (next : Option (V i) → Thread K V α)
  | store (i : ι) (key : K) (value : V i) (next : Thread K V α)
  | record (i : ι) (key : K) (access : Access) (next : Thread K V α)

variable {ι K : Type} {V : ι → Type} {α β σ J : Type}

/-- Threads, the caches and the statistics they share. -/
structure Pool (K : Type) (V : ι → Type) (α σ J : Type) where
  caches : Store K V
  stats : σ
  threads : J → Thread K V α

variable [DecidableEq ι] [DecidableEq K] [DecidableEq J]

section Steps

variable (note : ι → K → Access → σ → σ)

/-- One thread makes a step. -/
inductive Pool.Step (P : Pool K V α σ J) : Pool K V α σ J → Prop
  | lookup {j i key next} : P.threads j = .lookup i key next →
      P.Step { P with threads := Function.update P.threads j (next (P.caches i key)) }
  | store {j i key value next} : P.threads j = .store i key value next →
      P.Step { P with caches := P.caches.put i key value
                      threads := Function.update P.threads j next }
  | record {j i key access next} : P.threads j = .record i key access next →
      P.Step { P with stats := note i key access P.stats
                      threads := Function.update P.threads j next }

/-- Runs of `n` steps of threads, in any order. Entries can be lost between any
two of them. -/
inductive Pool.Runs : ℕ → Pool K V α σ J → Pool K V α σ J → Prop
  | refl {P} : Runs 0 P P
  | step {n P P₁ P'} : P.Step note P₁ → Runs n P₁ P' → Runs (n + 1) P P'
  | evict {n P caches P'} : P.caches.Evicted caches → Runs n { P with caches } P' → Runs n P P'

variable {note} {τ : Type} {note' : ι → K → Access → τ → τ} {P P' : Pool K V α σ J} {n : ℕ}

/-- Threads do not look at the statistics: what is recorded one way can be
recorded another way in the same run. -/
theorem Pool.Runs.refine {rel : σ → τ → Prop}
    (hnote : ∀ i key access s t, rel s t → rel (note i key access s) (note' i key access t))
    (hrun : Pool.Runs note n P P') {t : τ} (h : rel P.stats t) :
    ∃ t', rel P'.stats t' ∧
      Pool.Runs note' n ⟨P.caches, t, P.threads⟩ ⟨P'.caches, t', P'.threads⟩ := by
  induction hrun generalizing t with
  | refl => exact ⟨t, h, .refl⟩
  | step hstep _ ih =>
      cases hstep with
      | lookup hj =>
          obtain ⟨t', hrel, hrun'⟩ := ih h
          exact ⟨t', hrel, .step (.lookup hj) hrun'⟩
      | store hj =>
          obtain ⟨t', hrel, hrun'⟩ := ih h
          exact ⟨t', hrel, .step (.store hj) hrun'⟩
      | record hj =>
          obtain ⟨t', hrel, hrun'⟩ := ih (hnote _ _ _ _ _ h)
          exact ⟨t', hrel, .step (.record hj) hrun'⟩
  | evict hlost _ ih =>
      obtain ⟨t', hrel, hrun'⟩ := ih h
      exact ⟨t', hrel, .evict hlost hrun'⟩

/-- A counter that a record raises by at most one is at most the number of
steps. -/
theorem Pool.Runs.counter_le (counter : σ → ℕ)
    (hnote : ∀ i key access s, counter (note i key access s) ≤ counter s + 1)
    (hrun : Pool.Runs note n P P') : counter P'.stats ≤ counter P.stats + n := by
  induction hrun with
  | refl => exact Nat.le_refl _
  | @step n P P₁ P' hstep _ ih =>
      have hfirst : counter P₁.stats ≤ counter P.stats + 1 := by
        cases hstep with
        | lookup => exact Nat.le_succ _
        | store => exact Nat.le_succ _
        | record => exact hnote _ _ _ _
      omega
  | evict _ _ ih => exact ih

end Steps

/-! ### Results and balances -/

section Results

variable {M : Type} [AddCommMonoid M]

/-- With or without right entries, a thread returns `a` and writes right
entries, and the weights of what it records sum up to `b`. -/
def Thread.Returns (right : (i : ι) → K → V i → Prop) (weight : ι → K → Access → M) :
    Thread K V α → α → M → Prop
  | done c, a, b => c = a ∧ b = 0
  | lookup i key next, a, b => (next none).Returns right weight a b ∧
      ∀ value, right i key value → (next (some value)).Returns right weight a b
  | store i key value next, a, b => right i key value ∧ next.Returns right weight a b
  | record i key access next, a, b =>
      ∃ b', b = weight i key access + b' ∧ next.Returns right weight a b'

variable {right : (i : ι) → K → V i → Prop} {weight : ι → K → Access → M}
  {note : ι → K → Access → σ → σ} {value : σ → M} {P P' : Pool K V α σ J} {a : J → α} {n : ℕ}

private theorem update_pair {β γ : Type} {r : J → β → γ → Prop} {f : J → β} {g : J → γ} {j : J}
    {t : β} {b : γ} (h : ∀ j, r j (f j) (g j)) (ht : r j t b) (j' : J) :
    r j' (Function.update f j t j') (Function.update g j b j') := by
  by_cases hj : j' = j
  · subst hj
    rwa [Function.update_self, Function.update_self]
  · rw [Function.update_of_ne hj, Function.update_of_ne hj]
    exact h j'

variable [Fintype J]

private theorem add_sum_update {b : J → M} {j : J} {w b' : M} (h : b j = w + b') :
    w + ∑ j', Function.update b j b' j' = ∑ j', b j' := by
  rw [Finset.sum_update_of_mem (Finset.mem_univ j), Finset.sdiff_singleton_eq_erase,
    ← Finset.add_sum_erase _ b (Finset.mem_univ j), h, add_assoc]

/-- The caches are right, every thread will return its result, and what is
recorded and what is still to be recorded sum up to `total`. -/
def Pool.Balanced (right : (i : ι) → K → V i → Prop) (weight : ι → K → Access → M)
    (value : σ → M) (a : J → α) (total : M) (P : Pool K V α σ J) : Prop :=
  P.caches.Right right ∧ ∃ b : J → M,
    (∀ j, (P.threads j).Returns right weight (a j) (b j)) ∧ value P.stats + ∑ j, b j = total

variable {total : M}

theorem Pool.Balanced.step (hnote : ∀ i key access s,
      value (note i key access s) = value s + weight i key access)
    (h : P.Balanced right weight value a total) (hstep : P.Step note P') :
    P'.Balanced right weight value a total := by
  obtain ⟨hright, b, hreturns, htotal⟩ := h
  have hupdate : ∀ {j : J} {t : Thread K V α} {b' : M}, t.Returns right weight (a j) b' → ∀ j',
      (Function.update P.threads j t j').Returns right weight (a j') (Function.update b j b' j') :=
    fun ht => update_pair (r := fun j t b => Thread.Returns right weight t (a j) b) hreturns ht
  cases hstep with
  | @lookup j i key next hj =>
      have ht := hreturns j
      rw [hj] at ht
      have hnext : (next (P.caches i key)).Returns right weight (a j) (b j) := by
        cases hfound : P.caches i key with
        | none => exact ht.1
        | some value => exact ht.2 value (hright i key value hfound)
      refine ⟨hright, b, fun j' => ?_, htotal⟩
      simpa only [Function.update_eq_self] using hupdate hnext j'
  | @store j i key value' next hj =>
      have ht := hreturns j
      rw [hj] at ht
      refine ⟨hright.put ht.1, b, fun j' => ?_, htotal⟩
      simpa only [Function.update_eq_self] using hupdate ht.2 j'
  | @record j i key access next hj =>
      have ht := hreturns j
      rw [hj] at ht
      obtain ⟨b', hb, hnext⟩ := ht
      refine ⟨hright, Function.update b j b', hupdate hnext, ?_⟩
      rw [hnote, add_assoc, add_sum_update hb]
      exact htotal

theorem Pool.Balanced.runs (hnote : ∀ i key access s,
      value (note i key access s) = value s + weight i key access)
    (h : P.Balanced right weight value a total) (hrun : Pool.Runs note n P P') :
    P'.Balanced right weight value a total := by
  induction hrun with
  | refl => exact h
  | step hstep _ ih => exact ih (h.step hnote hstep)
  | evict hlost _ ih => exact ih ⟨h.1.evicted hlost, h.2⟩

omit [DecidableEq ι] [DecidableEq K] [DecidableEq J] in
/-- When all threads are done, they hold their results, and everything is
recorded. -/
theorem Pool.Balanced.finished (h : P.Balanced right weight value a total) {result : J → α}
    (hdone : ∀ j, P.threads j = .done (result j)) : result = a ∧ value P.stats = total := by
  obtain ⟨-, b, hreturns, htotal⟩ := h
  have hresult : ∀ j, result j = a j ∧ b j = 0 := by
    intro j
    have ht := hreturns j
    rwa [hdone j] at ht
  refine ⟨funext fun j => (hresult j).1, ?_⟩
  rw [← htotal, Finset.sum_eq_zero fun j _ => (hresult j).2, add_zero]

end Results

/-! ### Lengths of runs -/

section Lengths

/-- A thread makes at most `n` more steps. -/
def Thread.Within : Thread K V α → ℕ → Prop
  | done _, _ => True
  | lookup _ _ next, n => ∃ m, n = m + 1 ∧ ∀ found, (next found).Within m
  | store _ _ _ next, n => ∃ m, n = m + 1 ∧ next.Within m
  | record _ _ _ next, n => ∃ m, n = m + 1 ∧ next.Within m

omit [DecidableEq ι] [DecidableEq K] in
theorem Thread.Within.mono {t : Thread K V α} {m n : ℕ} (h : t.Within m) (hn : m ≤ n) :
    t.Within n := by
  induction t generalizing m n with
  | done a => trivial
  | lookup i key next ih =>
      obtain ⟨k, rfl, hnext⟩ := h
      obtain ⟨l, rfl⟩ := Nat.exists_eq_add_of_le' hn
      exact ⟨l + k, rfl, fun found => ih found (hnext found) (Nat.le_add_left k l)⟩
  | store i key value next ih =>
      obtain ⟨k, rfl, hnext⟩ := h
      obtain ⟨l, rfl⟩ := Nat.exists_eq_add_of_le' hn
      exact ⟨l + k, rfl, ih hnext (Nat.le_add_left k l)⟩
  | record i key access next ih =>
      obtain ⟨k, rfl, hnext⟩ := h
      obtain ⟨l, rfl⟩ := Nat.exists_eq_add_of_le' hn
      exact ⟨l + k, rfl, ih hnext (Nat.le_add_left k l)⟩

variable [Fintype J] {note : ι → K → Access → σ → σ} {P P' : Pool K V α σ J} {m n : ℕ}

/-- The threads make at most `n` more steps together. -/
def Pool.Within (P : Pool K V α σ J) (n : ℕ) : Prop :=
  ∃ bound : J → ℕ, (∀ j, (P.threads j).Within (bound j)) ∧ ∑ j, bound j = n

omit [DecidableEq ι] [DecidableEq K] in
private theorem within_update {caches : Store K V} {stats : σ} {threads : J → Thread K V α}
    {bound : J → ℕ} {j : J} {t : Thread K V α} {m : ℕ} (h : ∀ j, (threads j).Within (bound j))
    (hj : bound j = 1 + m) (ht : t.Within m) :
    ∃ k, 1 + k = ∑ j, bound j ∧
      Pool.Within ⟨caches, stats, Function.update threads j t⟩ k := by
  exact ⟨_, add_sum_update hj, Function.update bound j m,
    update_pair (r := fun _ t k => Thread.Within t k) h ht, rfl⟩

theorem Pool.Within.step (h : P.Within n) (hstep : P.Step note P') :
    ∃ k, 1 + k = n ∧ P'.Within k := by
  obtain ⟨bound, hbound, rfl⟩ := h
  cases hstep with
  | @lookup j i key next hj =>
      have ht := hbound j
      rw [hj] at ht
      obtain ⟨m, hm, hnext⟩ := ht
      exact within_update hbound (by rw [hm, add_comm]) (hnext _)
  | @store j i key value next hj =>
      have ht := hbound j
      rw [hj] at ht
      obtain ⟨m, hm, hnext⟩ := ht
      exact within_update hbound (by rw [hm, add_comm]) hnext
  | @record j i key access next hj =>
      have ht := hbound j
      rw [hj] at ht
      obtain ⟨m, hm, hnext⟩ := ht
      exact within_update hbound (by rw [hm, add_comm]) hnext

theorem Pool.Within.runs (h : P.Within n) (hrun : Pool.Runs note m P P') :
    ∃ k, m + k = n ∧ P'.Within k := by
  induction hrun generalizing n with
  | refl => exact ⟨n, Nat.zero_add n, h⟩
  | step hstep _ ih =>
      obtain ⟨k, rfl, hk⟩ := h.step hstep
      obtain ⟨k', rfl, hk'⟩ := ih hk
      exact ⟨k', by omega, hk'⟩
  | evict _ _ ih => exact ih h

variable (note)

omit [Fintype J] in
/-- A thread that is not done can make a step. -/
theorem Pool.exists_step {j : J} (h : ∀ result, P.threads j ≠ .done result) :
    ∃ P', P.Step note P' := by
  cases hj : P.threads j with
  | done result => exact absurd hj (h result)
  | lookup i key next => exact ⟨_, .lookup hj⟩
  | store i key value next => exact ⟨_, .store hj⟩
  | record i key access next => exact ⟨_, .record hj⟩

/-- Every pool of bounded threads runs to an end. -/
theorem Pool.Within.exists_finished (h : P.Within n) :
    ∃ m P', Pool.Runs note m P P' ∧ ∀ j, ∃ result, P'.threads j = .done result := by
  induction n using Nat.strong_induction_on generalizing P with
  | _ n ih =>
    by_cases hdone : ∀ j, ∃ result, P.threads j = .done result
    · exact ⟨0, P, .refl, hdone⟩
    · obtain ⟨j, hj⟩ := not_forall.mp hdone
      obtain ⟨P₁, hstep⟩ := Pool.exists_step note (not_exists.mp hj)
      obtain ⟨k, hk, hwithin⟩ := h.step hstep
      obtain ⟨m, P', hrun, hfinished⟩ := ih k (by omega) hwithin
      exact ⟨m + 1, P', .step hstep hrun, hfinished⟩

end Lengths

end SqlxData.Memo
