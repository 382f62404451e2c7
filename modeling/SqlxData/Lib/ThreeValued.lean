import Mathlib.Data.List.Basic
import Mathlib.Tactic.Tauto

/-!
Three-valued logic, as SQL predicates use it. A row passes a condition only
when the condition holds; a comparison with a missing value is unknown, and
the connectives are Kleene's.
-/

namespace ThreeValued

/-- The value of a condition on one row. -/
inductive Truth
  | holds
  | fails
  | unknown
  deriving DecidableEq, Repr, Inhabited

namespace Truth

def and : Truth → Truth → Truth
  | .fails, _ => .fails
  | _, .fails => .fails
  | .holds, .holds => .holds
  | _, _ => .unknown

def or : Truth → Truth → Truth
  | .holds, _ => .holds
  | _, .holds => .holds
  | .fails, .fails => .fails
  | _, _ => .unknown

def not : Truth → Truth
  | .holds => .fails
  | .fails => .holds
  | .unknown => .unknown

/-- A two-valued test as a condition. -/
def ofBool (b : Bool) : Truth := if b then .holds else .fails

/-- A test on values that may be missing. -/
def lift₂ {α : Type} (test : α → α → Bool) : Option α → Option α → Truth
  | some a, some b => ofBool (test a b)
  | _, _ => .unknown

@[simp] theorem ofBool_eq_holds (b : Bool) : ofBool b = .holds ↔ b = true := by
  cases b <;> simp [ofBool]

@[simp] theorem ofBool_eq_fails (b : Bool) : ofBool b = .fails ↔ b = false := by
  cases b <;> simp [ofBool]

@[simp] theorem and_eq_holds (s t : Truth) :
    s.and t = .holds ↔ s = .holds ∧ t = .holds := by
  cases s <;> cases t <;> simp [and]

@[simp] theorem or_eq_holds (s t : Truth) :
    s.or t = .holds ↔ s = .holds ∨ t = .holds := by
  cases s <;> cases t <;> simp [or]

@[simp] theorem not_eq_holds (t : Truth) : t.not = .holds ↔ t = .fails := by
  cases t <;> simp [not]

@[simp] theorem lift₂_some {α : Type} (test : α → α → Bool) (a b : α) :
    lift₂ test (some a) (some b) = ofBool (test a b) := rfl

end Truth

/-! ### Conditions taken for their complements -/

section Odd

variable {α : Type} {odd : α → Prop} {reading meaning : α → Truth} {xs : List α}

/-- The odd conditions of a list do not decide: there is none, or another one
does not hold, or they neither all hold nor all fail. -/
def OddIdle (odd : α → Prop) (meaning : α → Truth) (xs : List α) : Prop :=
  (∀ x ∈ xs, ¬odd x) ∨ (∃ x ∈ xs, ¬odd x ∧ meaning x ≠ .holds) ∨
    ((∃ x ∈ xs, odd x ∧ meaning x ≠ .holds) ∧ ∃ x ∈ xs, odd x ∧ meaning x ≠ .fails)

/-- A list property, with the odd conditions apart. -/
theorem forall_odd_iff (P Q : α → Prop) (odd : α → Prop) (xs : List α) :
    (∀ x ∈ xs, (odd x → P x) ∧ (¬odd x → Q x)) ↔
      (∀ x ∈ xs, odd x → P x) ∧ ∀ x ∈ xs, ¬odd x → Q x := by
  rw [← forall₂_and]

/-- Conditions that never hold together agree under a third one only when it
fails or both of them do. -/
theorem agree_under_iff {P Q R : Prop} (hone : ¬(P ∧ Q)) :
    (P ∧ R ↔ Q ∧ R) ↔ ¬R ∨ ¬Q ∧ ¬P := by
  tauto

/-- Where the odd conditions are taken for their complements, the list holds as
it is meant exactly when they do not decide. -/
theorem all_hold_iff_oddIdle
    (hodd : ∀ x ∈ xs, odd x → (reading x = .holds ↔ meaning x = .fails))
    (heven : ∀ x ∈ xs, ¬odd x → reading x = meaning x) :
    ((∀ x ∈ xs, reading x = .holds) ↔ ∀ x ∈ xs, meaning x = .holds) ↔ OddIdle odd meaning xs := by
  have hreadings : (∀ x ∈ xs, reading x = .holds) ↔
      (∀ x ∈ xs, odd x → meaning x = .fails) ∧ ∀ x ∈ xs, ¬odd x → meaning x = .holds := by
    rw [← forall_odd_iff]
    refine forall₂_congr fun x hx => ?_
    by_cases h : odd x
    · simp [h, hodd x hx h]
    · simp [h, heven x hx h]
  have hmeanings : (∀ x ∈ xs, meaning x = .holds) ↔
      (∀ x ∈ xs, odd x → meaning x = .holds) ∧ ∀ x ∈ xs, ¬odd x → meaning x = .holds := by
    rw [← forall_odd_iff]
    refine forall₂_congr fun x _ => ?_
    by_cases h : odd x <;> simp [h]
  rw [hreadings, hmeanings]
  by_cases hin : ∃ x ∈ xs, odd x
  · -- an odd condition does not hold and fail
    obtain ⟨y, hy, hoddy⟩ := hin
    have hone : ¬((∀ x ∈ xs, odd x → meaning x = .fails) ∧
        ∀ x ∈ xs, odd x → meaning x = .holds) := by
      rintro ⟨hfails, hholds⟩
      have hboth := (hfails y hy hoddy).symm.trans (hholds y hy hoddy)
      cases hboth
    have hsome : ¬∀ x ∈ xs, ¬odd x := fun h => h y hy hoddy
    have hothers : (∃ x ∈ xs, ¬odd x ∧ meaning x ≠ .holds) ↔
        ¬∀ x ∈ xs, ¬odd x → meaning x = .holds := by
      simp only [not_forall, exists_prop, ne_eq]
    have hyes : (∃ x ∈ xs, odd x ∧ meaning x ≠ .holds) ↔
        ¬∀ x ∈ xs, odd x → meaning x = .holds := by
      simp only [not_forall, exists_prop, ne_eq]
    have hno : (∃ x ∈ xs, odd x ∧ meaning x ≠ .fails) ↔
        ¬∀ x ∈ xs, odd x → meaning x = .fails := by
      simp only [not_forall, exists_prop, ne_eq]
    rw [OddIdle, or_iff_right hsome, hothers, hyes, hno]
    exact agree_under_iff hone
  · have hnone : ∀ x ∈ xs, ¬odd x := fun x hx h => hin ⟨x, hx, h⟩
    refine iff_of_true (and_congr_left fun _ => iff_of_true ?_ ?_) (.inl hnone)
    · exact fun x hx h => absurd h (hnone x hx)
    · exact fun x hx h => absurd h (hnone x hx)

end Odd

end ThreeValued
