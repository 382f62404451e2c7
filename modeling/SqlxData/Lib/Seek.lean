import Mathlib.Order.Defs.LinearOrder
import Mathlib.Order.Lattice
import Mathlib.Data.List.Basic

/-!
Keyset order. Tuples of values that may be missing are compared column by
column, each column in a direction of its own; a comparison with a missing
value never holds. In a list sorted by a strict order, the elements behind or
ahead of one of its elements are those the order picks out. Columns can also be
sorted with their missing values at one end; then the comparisons pick out only
a part of what stands behind an element, and pages may lose the rest.
-/

namespace Seek

/-! ### Tuples -/

section Tuples

variable {V : Type}

/-- Neither value is missing and they are equal. -/
def Same (a b : Option V) : Prop := ∃ x, x ∈ a ∧ x ∈ b

theorem Same.symm {a b : Option V} (h : Same a b) : Same b a := by
  obtain ⟨x, ha, hb⟩ := h
  exact ⟨x, hb, ha⟩

theorem same_comm (a b : Option V) : Same a b ↔ Same b a := ⟨Same.symm, Same.symm⟩

theorem Same.eq {a b : Option V} (h : Same a b) : a = b := by
  obtain ⟨x, ha, hb⟩ := h
  rw [Option.mem_def.mp ha, Option.mem_def.mp hb]

variable [LinearOrder V]

/-- `a` comes ahead of `b` in an ascending or descending column. -/
def Ahead (asc : Bool) (a b : Option V) : Prop :=
  ∃ x ∈ a, ∃ y ∈ b, if asc then x < y else y < x

/-- Tuples in lexicographic order. -/
def Precedes : List Bool → List (Option V) → List (Option V) → Prop
  | asc :: ds, a :: as, b :: bs => Ahead asc a b ∨ Same a b ∧ Precedes ds as bs
  | _, _, _ => False

theorem ahead_not (asc : Bool) (a b : Option V) : Ahead (!asc) a b ↔ Ahead asc b a := by
  cases asc <;> simp only [Ahead, Bool.not_true, Bool.not_false, if_true, Bool.false_eq_true,
    if_false] <;> constructor <;> rintro ⟨x, hx, y, hy, h⟩ <;> exact ⟨y, hy, x, hx, h⟩

theorem Ahead.irrefl {asc : Bool} {a : Option V} : ¬Ahead asc a a := by
  rintro ⟨x, hx, y, hy, h⟩
  obtain rfl := Option.mem_unique hx hy
  cases asc <;> simp at h

theorem Ahead.trans {asc : Bool} {a b c : Option V} (hab : Ahead asc a b) (hbc : Ahead asc b c) :
    Ahead asc a c := by
  obtain ⟨x, hx, y, hy, hxy⟩ := hab
  obtain ⟨y', hy', z, hz, hyz⟩ := hbc
  obtain rfl := Option.mem_unique hy hy'
  refine ⟨x, hx, z, hz, ?_⟩
  cases asc with
  | true => exact lt_trans hxy hyz
  | false => exact lt_trans hyz hxy

/-- Turning every column around turns the order around. -/
theorem precedes_map_not (ds : List Bool) (as bs : List (Option V)) :
    Precedes (ds.map (! ·)) as bs ↔ Precedes ds bs as := by
  induction ds generalizing as bs with
  | nil => simp [Precedes]
  | cons asc ds ih =>
      cases as with
      | nil => cases bs <;> simp [Precedes]
      | cons a as =>
          cases bs with
          | nil => simp [Precedes]
          | cons b bs => rw [List.map_cons, Precedes, Precedes, ahead_not, same_comm, ih]

theorem Precedes.irrefl {ds : List Bool} {as : List (Option V)} : ¬Precedes ds as as := by
  induction ds generalizing as with
  | nil => simp [Precedes]
  | cons asc ds ih =>
      cases as with
      | nil => simp [Precedes]
      | cons a as =>
          rintro (h | ⟨-, h⟩)
          · exact h.irrefl
          · exact ih h

theorem Precedes.trans {ds : List Bool} {as bs cs : List (Option V)} (hab : Precedes ds as bs)
    (hbc : Precedes ds bs cs) : Precedes ds as cs := by
  induction ds generalizing as bs cs with
  | nil => simp [Precedes] at hab
  | cons asc ds ih =>
      rcases as with _ | ⟨a, as⟩
      · simp [Precedes] at hab
      rcases bs with _ | ⟨b, bs⟩
      · simp [Precedes] at hab
      rcases cs with _ | ⟨c, cs⟩
      · simp [Precedes] at hbc
      rcases hab with hab | ⟨hsame, hab⟩
      · rcases hbc with hbc | ⟨hsame', -⟩
        · exact .inl (hab.trans hbc)
        · rw [hsame'.eq] at hab
          exact .inl hab
      · rw [hsame.eq]
        rcases hbc with hbc | ⟨hsame', hbc⟩
        · exact .inl hbc
        · exact .inr ⟨hsame', ih hab hbc⟩

theorem Precedes.asymm {ds : List Bool} {as bs : List (Option V)} (h : Precedes ds as bs) :
    ¬Precedes ds bs as := fun h' => (h.trans h').irrefl

instance (asc : Bool) (a b : Option V) : Decidable (Ahead asc a b) :=
  inferInstanceAs (Decidable (∃ x ∈ a, ∃ y ∈ b, if asc then x < y else y < x))

instance (a b : Option V) : Decidable (Same a b) := inferInstanceAs (Decidable (∃ x ∈ a, x ∈ b))

instance decidablePrecedes : (ds : List Bool) → (as bs : List (Option V)) →
    Decidable (Precedes ds as bs)
  | asc :: ds, a :: as, b :: bs =>
      have := decidablePrecedes ds as bs
      inferInstanceAs (Decidable (Ahead asc a b ∨ Same a b ∧ Precedes ds as bs))
  | [], _, _ => inferInstanceAs (Decidable False)
  | _ :: _, [], _ => inferInstanceAs (Decidable False)
  | _ :: _, _ :: _, [] => inferInstanceAs (Decidable False)

theorem ahead_or_of_ne (asc : Bool) {a b : Option V} (ha : a.isSome) (hb : b.isSome)
    (hne : a ≠ b) : Ahead asc a b ∨ Ahead asc b a := by
  obtain ⟨x, rfl⟩ := Option.isSome_iff_exists.mp ha
  obtain ⟨y, rfl⟩ := Option.isSome_iff_exists.mp hb
  have hxy : x ≠ y := fun h => hne (by rw [h])
  rcases lt_or_gt_of_ne hxy with h | h
  · cases asc with
    | true => exact .inl ⟨x, rfl, y, rfl, h⟩
    | false => exact .inr ⟨y, rfl, x, rfl, h⟩
  · cases asc with
    | true => exact .inr ⟨y, rfl, x, rfl, h⟩
    | false => exact .inl ⟨x, rfl, y, rfl, h⟩

/-- Different tuples without missing values are comparable. -/
theorem precedes_or_of_ne {ds : List Bool} {as bs : List (Option V)} (has : as.length = ds.length)
    (hbs : bs.length = ds.length) (hassome : ∀ a ∈ as, a.isSome) (hbssome : ∀ b ∈ bs, b.isSome)
    (hne : as ≠ bs) : Precedes ds as bs ∨ Precedes ds bs as := by
  induction ds generalizing as bs with
  | nil =>
      rw [List.length_nil, List.length_eq_zero_iff] at has hbs
      exact absurd (has.trans hbs.symm) hne
  | cons asc ds ih =>
      obtain ⟨a, as, rfl⟩ := List.exists_cons_of_length_eq_add_one has
      obtain ⟨b, bs, rfl⟩ := List.exists_cons_of_length_eq_add_one hbs
      have ha : a.isSome := hassome a (by simp)
      by_cases hab : a = b
      · subst hab
        obtain ⟨x, rfl⟩ := Option.isSome_iff_exists.mp ha
        have hrest := ih (by simpa using has) (by simpa using hbs)
          (fun a' h => hassome a' (by simp [h])) (fun b' h => hbssome b' (by simp [h]))
          (fun h => hne (by rw [h]))
        exact hrest.imp (fun h => .inr ⟨⟨x, rfl, rfl⟩, h⟩) fun h => .inr ⟨⟨x, rfl, rfl⟩, h⟩
      · exact (ahead_or_of_ne asc ha (hbssome b (by simp)) hab).imp .inl .inl

/-! Tuples without missing values. -/

/-- The lexicographic order that compares each column in its direction. -/
def LexLt : List Bool → List V → List V → Prop
  | asc :: ds, a :: as, b :: bs => (if asc then a < b else b < a) ∨ a = b ∧ LexLt ds as bs
  | _, _, _ => False

theorem precedes_some_iff (ds : List Bool) (as bs : List V) :
    Precedes ds (as.map some) (bs.map some) ↔ LexLt ds as bs := by
  induction ds generalizing as bs with
  | nil => simp [Precedes, LexLt]
  | cons asc ds ih =>
      rcases as with _ | ⟨a, as⟩
      · simp [Precedes, LexLt]
      rcases bs with _ | ⟨b, bs⟩
      · simp [Precedes, LexLt]
      simp [Precedes, LexLt, Ahead, Same, ih, eq_comm]

theorem LexLt.irrefl {ds : List Bool} {as : List V} : ¬LexLt ds as as :=
  fun h => ((precedes_some_iff ds as as).mpr h).irrefl

theorem LexLt.asymm {ds : List Bool} {as bs : List V} (h : LexLt ds as bs) : ¬LexLt ds bs as :=
  fun h' => ((precedes_some_iff ds as bs).mpr h).asymm ((precedes_some_iff ds bs as).mpr h')

theorem lexLt_or_of_ne {ds : List Bool} {as bs : List V} (has : as.length = ds.length)
    (hbs : bs.length = ds.length) (hne : as ≠ bs) : LexLt ds as bs ∨ LexLt ds bs as := by
  rw [← precedes_some_iff, ← precedes_some_iff]
  refine precedes_or_of_ne (by simpa using has) (by simpa using hbs) (by simp) (by simp) ?_
  exact fun h => hne (List.map_injective_iff.mpr (fun _ _ => Option.some.inj) h)

/-! Missing values sorted ahead of the others or behind them. -/

/-- The order of a column, ascending or descending, with its missing values at
one end. -/
def InFront (asc first : Bool) : Option V → Option V → Prop
  | none, none => False
  | none, some _ => first = true
  | some _, none => first = false
  | some x, some y => if asc then x < y else y < x

/-- Tuples in lexicographic order, each column with its direction and the end
for its missing values. -/
def Ranked : List (Bool × Bool) → List (Option V) → List (Option V) → Prop
  | d :: ds, a :: as, b :: bs => InFront d.1 d.2 a b ∨ a = b ∧ Ranked ds as bs
  | _, _, _ => False

theorem InFront.irrefl {asc first : Bool} {a : Option V} : ¬InFront asc first a a := by
  cases a with
  | none => exact id
  | some x => cases asc <;> simp [InFront]

theorem InFront.trans {asc first : Bool} {a b c : Option V} (hab : InFront asc first a b)
    (hbc : InFront asc first b c) : InFront asc first a c := by
  rcases a with _ | x <;> rcases b with _ | y <;> rcases c with _ | z <;> simp only [InFront] at *
  · simp [hab] at hbc
  · exact hab
  · simp [hab] at hbc
  · exact hbc
  · cases asc with
    | true => exact lt_trans hab hbc
    | false => exact lt_trans hbc hab

theorem inFront_or_of_ne (asc first : Bool) {a b : Option V} (hne : a ≠ b) :
    InFront asc first a b ∨ InFront asc first b a := by
  rcases a with _ | x <;> rcases b with _ | y
  · exact absurd rfl hne
  · cases first <;> simp [InFront]
  · cases first <;> simp [InFront]
  · have hxy : x ≠ y := fun h => hne (by rw [h])
    cases asc with
    | true => exact lt_or_gt_of_ne hxy
    | false => exact (lt_or_gt_of_ne hxy).symm

theorem Ahead.inFront {asc : Bool} {a b : Option V} (h : Ahead asc a b) (first : Bool) :
    InFront asc first a b := by
  obtain ⟨x, hx, y, hy, h⟩ := h
  rw [Option.mem_def.mp hx, Option.mem_def.mp hy]
  exact h

theorem Ranked.irrefl {ds : List (Bool × Bool)} {as : List (Option V)} : ¬Ranked ds as as := by
  induction ds generalizing as with
  | nil => simp [Ranked]
  | cons d ds ih =>
      cases as with
      | nil => simp [Ranked]
      | cons a as =>
          rintro (h | ⟨-, h⟩)
          · exact h.irrefl
          · exact ih h

theorem Ranked.trans {ds : List (Bool × Bool)} {as bs cs : List (Option V)}
    (hab : Ranked ds as bs) (hbc : Ranked ds bs cs) : Ranked ds as cs := by
  induction ds generalizing as bs cs with
  | nil => simp [Ranked] at hab
  | cons d ds ih =>
      rcases as with _ | ⟨a, as⟩
      · simp [Ranked] at hab
      rcases bs with _ | ⟨b, bs⟩
      · simp [Ranked] at hab
      rcases cs with _ | ⟨c, cs⟩
      · simp [Ranked] at hbc
      rcases hab with hab | ⟨rfl, hab⟩
      · rcases hbc with hbc | ⟨rfl, -⟩
        · exact .inl (hab.trans hbc)
        · exact .inl hab
      · exact hbc.imp id fun h => ⟨h.1, ih hab h.2⟩

theorem Ranked.asymm {ds : List (Bool × Bool)} {as bs : List (Option V)} (h : Ranked ds as bs) :
    ¬Ranked ds bs as := fun h' => (h.trans h').irrefl

/-- Different tuples are comparable. -/
theorem ranked_or_of_ne {ds : List (Bool × Bool)} {as bs : List (Option V)}
    (has : as.length = ds.length) (hbs : bs.length = ds.length) (hne : as ≠ bs) :
    Ranked ds as bs ∨ Ranked ds bs as := by
  induction ds generalizing as bs with
  | nil =>
      rw [List.length_nil, List.length_eq_zero_iff] at has hbs
      exact absurd (has.trans hbs.symm) hne
  | cons d ds ih =>
      obtain ⟨a, as, rfl⟩ := List.exists_cons_of_length_eq_add_one has
      obtain ⟨b, bs, rfl⟩ := List.exists_cons_of_length_eq_add_one hbs
      by_cases hab : a = b
      · subst hab
        have hrest := ih (by simpa using has) (by simpa using hbs) (fun h => hne (by rw [h]))
        exact hrest.imp (fun h => .inr ⟨rfl, h⟩) fun h => .inr ⟨rfl, h⟩
      · exact (inFront_or_of_ne d.1 d.2 hab).imp .inl .inl

/-- Turning a column around with its end for missing values turns its order
around. -/
theorem inFront_not_not (asc first : Bool) (a b : Option V) :
    InFront (!asc) (!first) a b ↔ InFront asc first b a := by
  rcases a with _ | x <;> rcases b with _ | y <;> cases asc <;> cases first <;> simp [InFront]

/-- The end for missing values counts only when one of the values is missing. -/
theorem inFront_not_of_isSome (asc first : Bool) {a b : Option V} (h : a.isSome = b.isSome) :
    InFront (!asc) first a b ↔ InFront asc first b a := by
  rcases a with _ | x <;> rcases b with _ | y
  · exact .rfl
  · cases h
  · cases h
  · cases asc <;> simp [InFront]

/-- The direction does not count when one of the values is missing. -/
theorem inFront_not_of_isSome_ne (asc first : Bool) {a b : Option V} (h : a.isSome ≠ b.isSome) :
    InFront (!asc) first a b ↔ InFront asc first a b := by
  rcases a with _ | x <;> rcases b with _ | y
  · exact .rfl
  · exact .rfl
  · exact .rfl
  · exact absurd rfl h

/-- The tuples agree up to a column that keeps its end for missing values, and
there one of them misses a value. -/
def Torn {β : Type} (d d' : β → Bool × Bool) (a b : β → Option V) (l : List β) : Prop :=
  ∃ ahead k behind, l = ahead ++ k :: behind ∧ (d' k).2 = (d k).2 ∧ (a k).isSome ≠ (b k).isSome ∧
    ∀ k' ∈ ahead, a k' = b k'

omit [LinearOrder V] in
theorem torn_cons {β : Type} (d d' : β → Bool × Bool) (a b : β → Option V) (k : β) (l : List β) :
    Torn d d' a b (k :: l) ↔
      (d' k).2 = (d k).2 ∧ (a k).isSome ≠ (b k).isSome ∨ a k = b k ∧ Torn d d' a b l := by
  constructor
  · rintro ⟨ahead, k', behind, hsplit, hkept, hne, hahead⟩
    rcases List.cons_eq_append_iff.mp hsplit with ⟨rfl, hcons⟩ | ⟨ahead', rfl, rfl⟩
    · obtain ⟨rfl, rfl⟩ := List.cons.inj hcons
      exact .inl ⟨hkept, hne⟩
    · exact .inr ⟨hahead k (by simp), ahead', k', behind, rfl, hkept, hne,
        fun k'' h => hahead k'' (by simp [h])⟩
  · rintro (⟨hkept, hne⟩ | ⟨hsame, ahead, k', behind, rfl, hkept, hne, hahead⟩)
    · exact ⟨[], k, l, rfl, hkept, hne, by simp⟩
    · exact ⟨k :: ahead, k', behind, rfl, hkept, hne, by simpa using ⟨hsame, hahead⟩⟩

/-- Turning every column around turns the order of two tuples around, unless
they are torn apart by a column that keeps its end for missing values. -/
theorem ranked_turned_iff {β : Type} {d d' : β → Bool × Bool} (a b : β → Option V) {l : List β}
    (hturned : ∀ k ∈ l, (d' k).1 = !(d k).1) :
    (Ranked (l.map d') (l.map a) (l.map b) ↔ Ranked (l.map d) (l.map b) (l.map a)) ↔
      ¬Torn d d' a b l := by
  induction l with
  | nil => simp [Ranked, Torn]
  | cons k l ih =>
      have hk := hturned k (by simp)
      have ih := ih fun k' h => hturned k' (by simp [h])
      rw [List.map_cons, List.map_cons, List.map_cons, List.map_cons, Ranked, Ranked, torn_cons, hk]
      by_cases hab : a k = b k
      · rw [hab]
        simpa [InFront.irrefl, hab] using ih
      have hba : ¬b k = a k := fun h => hab h.symm
      simp only [hab, hba, false_and, or_false]
      by_cases hkept : (d' k).2 = (d k).2
      · rw [hkept]
        by_cases hsome : (a k).isSome = (b k).isSome
        · simp [inFront_not_of_isSome _ _ hsome, hsome]
        · -- the value that is missing decides, in both directions
          rw [inFront_not_of_isSome_ne _ _ hsome]
          have hone := inFront_or_of_ne (d k).1 (d k).2 hab
          have hnot : InFront (d k).1 (d k).2 (a k) (b k) → ¬InFront (d k).1 (d k).2 (b k) (a k) :=
            fun h h' => (h.trans h').irrefl
          simp only [hsome, ne_eq, not_false_eq_true, and_self, not_true_eq_false, iff_false]
          tauto
      · have hflipped : (d' k).2 = !(d k).2 := Bool.eq_not.mpr hkept
        simp [hflipped, inFront_not_not]

theorem Precedes.ranked {ds : List (Bool × Bool)} {as bs : List (Option V)}
    (h : Precedes (ds.map Prod.fst) as bs) : Ranked ds as bs := by
  induction ds generalizing as bs with
  | nil => simp [Precedes] at h
  | cons d ds ih =>
      rcases as with _ | ⟨a, as⟩
      · simp [Precedes] at h
      rcases bs with _ | ⟨b, bs⟩
      · simp [Precedes] at h
      rcases h with h | ⟨hsame, h⟩
      · exact .inl (h.inFront d.2)
      · exact .inr ⟨hsame.eq, ih h⟩

/-- A value is missing behind values that are there, in the first column in
which the tuples differ. -/
def MissingBehind : List (Bool × Bool) → List (Option V) → List (Option V) → Prop
  | d :: ds, a :: as, b :: bs => d.2 = false ∧ b = none ∨ a = b ∧ MissingBehind ds as bs
  | _, _, _ => False

omit [LinearOrder V] in
theorem missingBehind_map_iff {β : Type} (f : β → Bool × Bool) (a b : β → Option V) (l : List β) :
    MissingBehind (l.map f) (l.map a) (l.map b) ↔
      ∃ ahead k behind, l = ahead ++ k :: behind ∧ (f k).2 = false ∧ b k = none ∧
        ∀ k' ∈ ahead, a k' = b k' := by
  induction l with
  | nil => simp [MissingBehind]
  | cons k l ih =>
      rw [List.map_cons, List.map_cons, List.map_cons, MissingBehind, ih]
      constructor
      · rintro (⟨hlast, hnone⟩ | ⟨hsame, ahead, k', behind, rfl, hlast, hnone, hahead⟩)
        · exact ⟨[], k, l, rfl, hlast, hnone, by simp⟩
        · exact ⟨k :: ahead, k', behind, rfl, hlast, hnone, by simpa using ⟨hsame, hahead⟩⟩
      · rintro ⟨ahead, k', behind, hsplit, hlast, hnone, hahead⟩
        rcases List.cons_eq_append_iff.mp hsplit with ⟨rfl, hcons⟩ | ⟨ahead', rfl, rfl⟩
        · obtain ⟨rfl, rfl⟩ := List.cons.inj hcons
          exact .inl ⟨hlast, hnone⟩
        · exact .inr ⟨hahead k (by simp), ahead', k', behind, rfl, hlast, hnone,
            fun k'' h => hahead k'' (by simp [h])⟩

/-- The comparisons do not pick out what is missing. -/
theorem Precedes.not_missingBehind {ds : List (Bool × Bool)} {as bs : List (Option V)}
    (h : Precedes (ds.map Prod.fst) as bs) : ¬MissingBehind ds as bs := by
  induction ds generalizing as bs with
  | nil => simp [Precedes] at h
  | cons d ds ih =>
      rcases as with _ | ⟨a, as⟩
      · simp [Precedes] at h
      rcases bs with _ | ⟨b, bs⟩
      · simp [Precedes] at h
      rintro (⟨-, rfl⟩ | ⟨rfl, hmissing⟩)
      · rcases h with ⟨x, hx, y, hy, h⟩ | ⟨⟨x, hx, hy⟩, h⟩
        · cases hy
        · cases hy
      · rcases h with h | ⟨-, h⟩
        · exact h.irrefl
        · exact ih h hmissing

/-- What comes behind a tuple without missing values is behind it by the
comparisons, or it misses a value there. -/
theorem Ranked.precedes_or_missingBehind {ds : List (Bool × Bool)} {as bs : List (Option V)}
    (h : Ranked ds as bs) (has : ∀ a ∈ as, a.isSome) :
    Precedes (ds.map Prod.fst) as bs ∨ MissingBehind ds as bs := by
  induction ds generalizing as bs with
  | nil => simp [Ranked] at h
  | cons d ds ih =>
      rcases as with _ | ⟨a, as⟩
      · simp [Ranked] at h
      rcases bs with _ | ⟨b, bs⟩
      · simp [Ranked] at h
      obtain ⟨x, rfl⟩ := Option.isSome_iff_exists.mp (has a (by simp))
      rcases h with h | ⟨rfl, h⟩
      · -- the tuples differ here, so the columns behind do not count
        rcases b with _ | y
        · exact .inr (.inl ⟨h, rfl⟩)
        · exact .inl (.inl ⟨x, rfl, y, rfl, h⟩)
      · rcases ih h fun a' h' => has a' (by simp [h']) with h | h
        · exact .inl (.inr ⟨⟨x, rfl, rfl⟩, h⟩)
        · exact .inr (.inr ⟨rfl, h⟩)

end Tuples

/-! ### Sorted lists -/

section Sorted

variable {α : Type} {R : α → α → Prop} {p : α → Bool} {pre post : List α} {x : α}

/-- What stands behind an element of a sorted list. -/
theorem filter_eq_behind (hasymm : ∀ a b, R a b → ¬R b a) (hsorted : (pre ++ x :: post).Pairwise R)
    (hp : ∀ y ∈ pre ++ x :: post, p y = true ↔ R x y) : (pre ++ x :: post).filter p = post := by
  obtain ⟨-, hpost, hahead⟩ := List.pairwise_append.mp hsorted
  have hpre : pre.filter p = [] := by
    rw [List.filter_eq_nil_iff]
    intro y hy
    rw [hp y (by simp [hy])]
    exact hasymm y x (hahead y hy x (by simp))
  have hx : ¬p x = true := by
    rw [hp x (by simp)]
    exact fun h => hasymm x x h h
  rw [List.filter_append, hpre, List.filter_cons_of_neg hx, List.nil_append, List.filter_eq_self]
  intro y hy
  rw [hp y (by simp [hy])]
  exact (List.pairwise_cons.mp hpost).1 y hy

/-- A test that keeps to the order picks out what stands behind an element when
it misses nothing there. -/
theorem filter_eq_of_passes (hasymm : ∀ a b, R a b → ¬R b a)
    (hsorted : (pre ++ x :: post).Pairwise R) (hsound : ∀ y, p y = true → R x y)
    (hpost : ∀ y ∈ post, p y = true) : (pre ++ x :: post).filter p = post := by
  obtain ⟨-, -, hahead⟩ := List.pairwise_append.mp hsorted
  refine filter_eq_behind hasymm hsorted fun y hy => ⟨hsound y, fun hxy => ?_⟩
  rcases List.mem_append.mp hy with hy | hy
  · exact absurd hxy (hasymm y x (hahead y hy x (by simp)))
  rcases List.mem_cons.mp hy with rfl | hy
  · exact absurd hxy (hasymm y y hxy)
  · exact hpost y hy

/-- What stands ahead of an element of a sorted list. -/
theorem filter_eq_ahead (hasymm : ∀ a b, R a b → ¬R b a) (hsorted : (pre ++ x :: post).Pairwise R)
    (hp : ∀ y ∈ pre ++ x :: post, p y = true ↔ R y x) : (pre ++ x :: post).filter p = pre := by
  obtain ⟨-, hpost, hahead⟩ := List.pairwise_append.mp hsorted
  have hbehind : (x :: post).filter p = [] := by
    rw [List.filter_eq_nil_iff]
    intro y hy
    rw [hp y (List.mem_append_right _ hy)]
    rcases List.mem_cons.mp hy with rfl | hy
    · exact fun h => hasymm y y h h
    · exact hasymm x y ((List.pairwise_cons.mp hpost).1 y hy)
  rw [List.filter_append, hbehind, List.append_nil, List.filter_eq_self]
  intro y hy
  rw [hp y (by simp [hy])]
  exact hahead y hy x (by simp)

/-- A list of the same elements that does not go against the order is sorted. -/
theorem eq_of_perm (hasymm : ∀ a b, R a b → ¬R b a) {S l : List α} (hS : S.Pairwise R)
    (hperm : l.Perm S) (hl : l.Pairwise fun a b => ¬R b a) : l = S := by
  have hcomparable : l.Pairwise fun a b => R a b ∨ R b a :=
    hperm.symm.pairwise (hS.imp Or.inl) Or.symm
  have hsorted : l.Pairwise R := hl.and hcomparable |>.imp fun h => h.2.resolve_right h.1
  exact List.Perm.eq_of_pairwise (fun a b _ _ hab hba => absurd hba (hasymm a b hab)) hsorted hS
    hperm

/-- A list of pairwise comparable elements can be sorted. -/
theorem exists_sorted (htrans : ∀ a b c, R a b → R b c → R a c) (hasymm : ∀ a b, R a b → ¬R b a)
    {l : List α} (hl : l.Pairwise fun a b => R a b ∨ R b a) :
    ∃ S : List α, S.Perm l ∧ S.Pairwise R := by
  classical
  induction l with
  | nil => exact ⟨[], .refl _, .nil⟩
  | cons x l ih =>
      obtain ⟨hx, hl⟩ := List.pairwise_cons.mp hl
      obtain ⟨S, hperm, hS⟩ := ih hl
      have hsplit : ∀ y ∈ S, (!decide (R y x)) = decide (R x y) := by
        intro y hy
        rcases hx y (hperm.mem_iff.mp hy) with h | h
        · simp [h, hasymm x y h]
        · simp [h, hasymm y x h]
      refine ⟨S.filter (R · x) ++ x :: S.filter (R x ·), ?_, ?_⟩
      · have hpart := List.filter_append_perm (fun y => decide (R y x)) S
        rw [List.filter_congr hsplit] at hpart
        exact List.perm_middle.trans ((hpart.trans hperm).cons x)
      · refine List.pairwise_append.mpr ⟨hS.filter _, List.pairwise_cons.mpr
          ⟨fun y hy => by simpa using (List.mem_filter.mp hy).2, hS.filter _⟩, fun y hy z hz => ?_⟩
        have hyx : R y x := by simpa using (List.mem_filter.mp hy).2
        rcases List.mem_cons.mp hz with rfl | hz
        · exact hyx
        · exact htrans y x z hyx (by simpa using (List.mem_filter.mp hz).2)

end Sorted

/-! ### Pages -/

section Pages

variable {α : Type} {R : α → α → Prop} {S rest pre : List α} {p : α → α → Bool} {n : ℕ}
  {pages : List (List α)}

/-- Pages of `n` elements, taken from `rest` on. What comes after a full page
is picked out of the whole list by the last element of the page. -/
inductive Pages (S : List α) (p : α → α → Bool) (n : ℕ) : List α → List (List α) → Prop
  | last {rest : List α} : rest.length ≤ n → Pages S p n rest [rest]
  | more {rest init : List α} {x : α} {pages : List (List α)} : n < rest.length →
      rest.take n = init ++ [x] →
      Pages S p n (S.filter (p x)) pages → Pages S p n rest ((init ++ [x]) :: pages)

theorem Pages.ne_nil (h : Pages S p n rest pages) : pages ≠ [] := by
  cases h <;> exact List.cons_ne_nil _ _

/-- What a page's last element does not pick out never comes back. -/
theorem Pages.passes (htrans : ∀ x y z, p x y = true → p y z = true → p x z = true)
    (h : Pages S p n rest pages) {x : α} (hrest : ∀ y ∈ rest, p x y = true) :
    ∀ y ∈ pages.flatten, p x y = true := by
  induction h with
  | last => simpa using hrest
  | @more rest init z pages _ htake _ ih =>
      have hpage : ∀ y ∈ init ++ [z], p x y = true := by
        intro y hy
        rw [← htake] at hy
        exact hrest y (List.mem_of_mem_take hy)
      have hbehind : ∀ y ∈ S.filter (p z), p x y = true := fun y hy =>
        htrans x z y (hpage z (by simp)) (List.mem_filter.mp hy).2
      intro y hy
      rw [List.flatten_cons, List.mem_append] at hy
      exact hy.elim (hpage y) (ih hbehind y)

/-- When the pages make up the list, the last element of each picks out all
that stands behind it. -/
theorem Pages.passes_of_flatten (htrans : ∀ x y z, p x y = true → p y z = true → p x z = true)
    (h : Pages S p n rest pages) (hS : S = pre ++ pages.flatten) (hpre : n ∣ pre.length)
    {ahead post : List α} {x : α} (hsplit : S = ahead ++ x :: post)
    (hahead : pre.length ≤ ahead.length) (hend : n ∣ ahead.length + 1) :
    ∀ y ∈ post, p x y = true := by
  obtain ⟨k, hk⟩ := hpre
  obtain ⟨l, hl⟩ := hend
  have hkl : k < l := by
    by_contra hle
    have := Nat.mul_le_mul_left n (Nat.le_of_not_lt hle)
    omega
  induction h generalizing pre k with
  | @last rest hlast =>
      have hcount := congrArg List.length (hS.symm.trans hsplit)
      have hfull : n * (k + 1) ≤ n * l := Nat.mul_le_mul_left n hkl
      rw [Nat.mul_succ] at hfull
      simp only [List.flatten_cons, List.flatten_nil, List.append_nil, List.length_append,
        List.length_cons] at hcount
      have hpost : post.length = 0 := by omega
      simp [List.length_eq_zero_iff.mp hpost]
  | @more rest init z pages hmore htake hbehind ih =>
      have hpage : (init ++ [z]).length = n := by
        rw [← htake, List.length_take]
        omega
      by_cases hnext : l = k + 1
      · -- the element ends this page
        have hsame : pre ++ init ++ z :: pages.flatten = ahead ++ x :: post := by
          rw [← hsplit, hS]
          simp
        subst hnext
        rw [Nat.mul_succ] at hl
        have hlength : (pre ++ init).length = ahead.length := by
          simp only [List.length_append, List.length_singleton] at hpage ⊢
          omega
        obtain ⟨-, htail⟩ := List.append_inj hsame hlength
        obtain ⟨rfl, rfl⟩ := List.cons.inj htail
        exact hbehind.passes htrans fun y hy => (List.mem_filter.mp hy).2
      · have hfull : n * (k + 1 + 1) ≤ n * l := Nat.mul_le_mul_left n (by omega)
        rw [Nat.mul_succ, Nat.mul_succ] at hfull
        have hlength : (pre ++ (init ++ [z])).length = n * (k + 1) := by
          rw [List.length_append, hpage, hk, Nat.mul_succ]
        have hn : 0 < n := by
          rw [← hpage]
          simp
        refine @ih (pre ++ (init ++ [z])) (by rw [hS]; simp) ?_ (k + 1) hlength (by omega)
        rw [hlength, Nat.mul_succ]
        omega

/-- When each page end picks out all that stands behind it, the pages make up
the list. -/
theorem exists_pages_of_passes (hn : 0 < n) (hasymm : ∀ a b, R a b → ¬R b a)
    (hsorted : S.Pairwise R) (hsound : ∀ x y, p x y = true → R x y)
    (hpasses : ∀ ahead x post, S = ahead ++ x :: post → n ∣ ahead.length + 1 →
      ∀ y ∈ post, p x y = true)
    (hS : S = pre ++ rest) (hpre : n ∣ pre.length) :
    ∃ pages, Pages S p n rest pages ∧ pages.flatten = rest := by
  -- fewer elements are left behind every page
  induction hlength : rest.length using Nat.strongRecOn generalizing pre rest with
  | _ m ih =>
      by_cases hlast : rest.length ≤ n
      · exact ⟨[rest], .last hlast, by simp⟩
      have hmore : n < rest.length := Nat.lt_of_not_le hlast
      have htaken : (rest.take n).length = n := by
        rw [List.length_take]
        omega
      obtain ⟨init, x, hpage⟩ := List.eq_nil_or_concat' (rest.take n) |>.resolve_left (by
        intro hnil
        rw [hnil, List.length_nil] at htaken
        omega)
      have hfull : (init ++ [x]).length = n := by rw [← hpage, htaken]
      have hsplit : S = (pre ++ init) ++ x :: rest.drop n := by
        rw [hS]
        conv_lhs => rw [← List.take_append_drop n rest, hpage]
        simp
      have hend : n ∣ (pre ++ init).length + 1 := by
        have hcount : (pre ++ init).length + 1 = pre.length + n := by
          rw [← hfull]
          simp only [List.length_append, List.length_singleton]
          omega
        rw [hcount]
        exact Nat.dvd_add hpre (Nat.dvd_refl n)
      have hbehind : S.filter (p x) = rest.drop n := by
        have hpost := hpasses _ x _ hsplit hend
        rw [hsplit] at hsorted ⊢
        exact filter_eq_of_passes hasymm hsorted (hsound x) hpost
      have hS' : S = (pre ++ (init ++ [x])) ++ rest.drop n := by
        rw [hsplit]
        simp
      have hpre' : n ∣ (pre ++ (init ++ [x])).length := by
        rw [List.length_append, hfull]
        exact Nat.dvd_add hpre (Nat.dvd_refl n)
      have hshorter : (rest.drop n).length < m := by
        rw [List.length_drop]
        omega
      obtain ⟨pages, hpages, hflatten⟩ := ih _ hshorter hS' hpre' rfl
      rw [← hbehind] at hpages
      refine ⟨_, .more hmore hpage hpages, ?_⟩
      rw [List.flatten_cons, hflatten, ← hpage, List.take_append_drop]

end Pages

end Seek
