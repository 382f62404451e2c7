import Mathlib.Tactic

/-!
Rewriting where two different steps from one place meet again after one step
each. Then all ways to a normal form have one length: what is reached once is
reached by every run that goes on.
-/

namespace SqlxData.Rewriting

section

variable {α : Type} (r : α → α → Prop)

inductive Steps : ℕ → α → α → Prop
  | zero (a : α) : Steps 0 a a
  | succ {n : ℕ} {a b c : α} : r a b → Steps n b c → Steps (n + 1) a c

def Normal (a : α) : Prop := ∀ b, ¬r a b

def Diamond : Prop := ∀ a b c, r a b → r a c → b = c ∨ ∃ d, r b d ∧ r c d

end

variable {α : Type} {r : α → α → Prop}

theorem Steps.trans {m n : ℕ} {a b c : α} (hab : Steps r m a b) (hbc : Steps r n b c) :
    Steps r (m + n) a c := by
  induction hab with
  | zero a => rwa [Nat.zero_add]
  | @succ m a d b had _ ih =>
      have hac := Steps.succ had (ih hbc)
      rwa [show m + n + 1 = m + 1 + n by omega] at hac

/-- The rest of the way to a normal form after any first step. -/
theorem Steps.after_step (hr : Diamond r) {n : ℕ} {a b s : α} (hs : Normal r s)
    (has : Steps r n a s) (hab : r a b) : ∃ m, n = m + 1 ∧ Steps r m b s := by
  induction has generalizing b with
  | zero a => exact absurd hab (hs b)
  | @succ n a c s hac hcs ih =>
      obtain rfl | ⟨d, hbd, hcd⟩ := hr a b c hab hac
      · exact ⟨n, rfl, hcs⟩
      · obtain ⟨m, rfl, hds⟩ := ih hs hcd
        exact ⟨m + 1, rfl, .succ hbd hds⟩

/-- The rest of the way to a normal form after any run. -/
theorem Steps.after_steps (hr : Diamond r) {k n : ℕ} {a b s : α} (hs : Normal r s)
    (has : Steps r n a s) (hab : Steps r k a b) : ∃ m, n = k + m ∧ Steps r m b s := by
  induction hab generalizing n with
  | zero a => exact ⟨n, by omega, has⟩
  | @succ k a c b hac _ ih =>
      obtain ⟨n, rfl, hcs⟩ := has.after_step hr hs hac
      obtain ⟨m, rfl, hbs⟩ := ih hcs
      exact ⟨m, by omega, hbs⟩

theorem Steps.eq_of_normal {n : ℕ} {a b : α} (ha : Normal r a) (hab : Steps r n a b) : a = b := by
  cases hab with
  | zero => rfl
  | succ h _ => exact absurd h (ha _)

/-- There is at most one normal form. -/
theorem Steps.unique (hr : Diamond r) {m n : ℕ} {a s t : α} (hs : Normal r s) (ht : Normal r t)
    (has : Steps r m a s) (hat : Steps r n a t) : s = t := by
  obtain ⟨_, -, hts⟩ := has.after_steps hr hs hat
  exact (hts.eq_of_normal ht).symm

end SqlxData.Rewriting
