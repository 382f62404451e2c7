import Mathlib.Data.List.Infix
import Mathlib.Data.List.DropRight

/-!
Text functions over lists: replacing a pattern, trimming, and cutting at a
separator.
-/

namespace Text

variable {α : Type} [DecidableEq α]

/-! ### Replacing -/

/-- Replaces the matches of a pattern from left to right; `skip` elements
belong to the match just replaced. -/
def replaceFrom (pat new : List α) : ℕ → List α → List α
  | _, [] => []
  | skip + 1, _ :: xs => replaceFrom pat new skip xs
  | 0, x :: xs =>
      if pat <+: x :: xs then new ++ replaceFrom pat new (pat.length - 1) xs
      else x :: replaceFrom pat new 0 xs

/-- Replaces a pattern that is not empty. -/
def replace (pat new xs : List α) : List α := replaceFrom pat new 0 xs

variable {pat new : List α}

theorem replaceFrom_eq (skip : ℕ) (xs : List α) :
    replaceFrom pat new skip xs = replace pat new (xs.drop skip) := by
  induction xs generalizing skip with
  | nil => cases skip <;> rfl
  | cons x xs ih =>
      cases skip with
      | zero => rfl
      | succ skip => exact ih skip

@[simp] theorem replace_nil : replace pat new [] = [] := rfl

theorem replace_cons_of_no_match {x : α} {xs : List α} (h : ¬pat <+: x :: xs) :
    replace pat new (x :: xs) = x :: replace pat new xs := by
  rw [replace, replaceFrom, if_neg h]
  rfl

theorem replace_append_self (hpat : pat ≠ []) (xs : List α) :
    replace pat new (pat ++ xs) = new ++ replace pat new xs := by
  obtain ⟨p, ps, rfl⟩ := List.exists_cons_of_ne_nil hpat
  have hpre : p :: ps <+: p :: (ps ++ xs) := List.prefix_append (p :: ps) xs
  rw [List.cons_append, replace, replaceFrom, if_pos hpre, replaceFrom_eq]
  simp

/-- A list is empty, starts with the pattern, or starts with an element that
stays. -/
theorem replace_cases (hpat : pat ≠ []) {motive : List α → Prop} (nil : motive [])
    (hit : ∀ xs, motive xs → motive (pat ++ xs))
    (miss : ∀ x xs, ¬pat <+: x :: xs → motive xs → motive (x :: xs)) (xs : List α) :
    motive xs := by
  induction hn : xs.length using Nat.strong_induction_on generalizing xs with
  | _ n ih =>
      cases xs with
      | nil => exact nil
      | cons x xs =>
          by_cases h : pat <+: x :: xs
          · obtain ⟨rest, hrest⟩ := h
            have hlt : rest.length < n := by
              rw [← hn, ← hrest, List.length_append]
              have := List.length_pos_iff.mpr hpat
              omega
            rw [← hrest]
            exact hit rest (ih _ hlt rest rfl)
          · exact miss x xs h (ih xs.length (by rw [← hn]; simp) xs rfl)

/-- What stands in the result was there before or comes with the new text. -/
theorem mem_replace (hpat : pat ≠ []) {xs : List α} {a : α} (h : a ∈ replace pat new xs) :
    a ∈ xs ∨ a ∈ new := by
  induction xs using replace_cases hpat with
  | nil => exact .inl h
  | hit xs ih =>
      rw [replace_append_self hpat, List.mem_append] at h
      obtain h | h := h
      · exact .inr h
      · exact (ih h).imp_left (List.mem_append_right pat)
  | miss x xs hx ih =>
      rw [replace_cons_of_no_match hx, List.mem_cons] at h
      obtain rfl | h := h
      · exact .inl List.mem_cons_self
      · exact (ih h).imp_left (List.mem_cons_of_mem x)

/-- Without a match nothing changes. -/
theorem replace_eq_self {xs : List α} (h : ¬pat <:+: xs) : replace pat new xs = xs := by
  induction xs with
  | nil => rfl
  | cons x xs ih =>
      rw [replace_cons_of_no_match fun hx => h hx.isInfix,
        ih fun hx => h (hx.trans (List.suffix_cons x xs).isInfix)]

omit [DecidableEq α] in
theorem not_infix_of_not_mem {xs : List α} {a : α} (ha : a ∈ pat) (h : a ∉ xs) : ¬pat <:+: xs :=
  fun hx => h (hx.subset ha)

theorem replace_singleton (a : α) (new xs : List α) :
    replace [a] new xs = xs.flatMap fun x => if x = a then new else [x] := by
  induction xs with
  | nil => rfl
  | cons x xs ih =>
      by_cases hx : x = a
      · subst hx
        rw [show x :: xs = [x] ++ xs from rfl, replace_append_self (by simp), ih]
        simp
      · have hmiss : ¬[a] <+: x :: xs := by
          rw [List.cons_prefix_cons]
          exact fun h => hx h.1.symm
        rw [replace_cons_of_no_match hmiss, ih]
        simp [hx]

/-- A pattern and a text that end alike leave the end of the whole. -/
theorem getLast?_replace (hpat : pat ≠ []) (hlast : pat.getLast? = new.getLast?)
    (xs : List α) : (replace pat new xs).getLast? = xs.getLast? := by
  induction xs using replace_cases hpat with
  | nil => rfl
  | hit xs ih => rw [replace_append_self hpat, List.getLast?_append, List.getLast?_append, ih, hlast]
  | miss x xs hx ih =>
      rw [replace_cons_of_no_match hx, List.getLast?_cons, List.getLast?_cons, ih]

/-- Putting an escape in front of every quote is undone by taking the escapes
in front of quotes away. -/
theorem replace_escaped {e q : α} (h : e ≠ q) (xs : List α) :
    replace [e, q] [q] (replace [q] [e, q] xs) = xs := by
  induction xs with
  | nil => rfl
  | cons x xs ih =>
      rw [replace_singleton] at ih ⊢
      by_cases hx : x = q
      · subst hx
        rw [List.flatMap_cons, if_pos rfl, replace_append_self (by simp), ih]
        rfl
      · rw [List.flatMap_cons, if_neg hx, List.singleton_append]
        rw [replace_cons_of_no_match, ih]
        intro hpre
        rw [List.cons_prefix_cons] at hpre
        obtain ⟨rfl, hpre⟩ := hpre
        -- Behind an escape of the text no quote follows: it has its own escape.
        cases xs with
        | nil => simp at hpre
        | cons y ys =>
            rw [List.flatMap_cons] at hpre
            by_cases hy : y = q
            · rw [if_pos hy, List.cons_append, List.cons_prefix_cons] at hpre
              exact h hpre.1.symm
            · rw [if_neg hy, List.singleton_append, List.cons_prefix_cons] at hpre
              exact hy hpre.1.symm

/-- A pattern does not begin in a text without its first character. -/
theorem replace_append_of_not_mem {a : α} {as new xs : List α} (h : a ∉ xs) (ys : List α) :
    replace (a :: as) new (xs ++ ys) = xs ++ replace (a :: as) new ys := by
  induction xs with
  | nil => rfl
  | cons x xs ih =>
      obtain ⟨hx, hxs⟩ := List.ne_and_not_mem_of_not_mem_cons h
      have hmiss : ¬a :: as <+: x :: (xs ++ ys) := by
        rw [List.cons_prefix_cons]
        exact fun hpre => hx hpre.1
      rw [List.cons_append, replace_cons_of_no_match hmiss, ih hxs, List.cons_append]

omit [DecidableEq α] in
theorem infix_of_infix_append {a : α} {as xs ys : List α} (h : a ∉ xs)
    (hin : a :: as <:+: xs ++ ys) : a :: as <:+: ys := by
  induction xs with
  | nil => exact hin
  | cons x xs ih =>
      obtain ⟨hx, hxs⟩ := List.ne_and_not_mem_of_not_mem_cons h
      rw [List.cons_append, List.infix_cons_iff, List.cons_prefix_cons] at hin
      obtain ⟨hax, -⟩ | hin := hin
      · exact absurd hax hx
      · exact ih hxs hin

/-! ### Trimming -/

def trim (blank : α → Bool) (xs : List α) : List α := (xs.dropWhile blank).rdropWhile blank

omit [DecidableEq α] in
theorem trim_eq_self {blank : α → Bool} {xs : List α} (hhead : ∀ x ∈ xs.head?, !blank x)
    (hlast : ∀ x ∈ xs.getLast?, !blank x) : trim blank xs = xs := by
  have hdrop : xs.dropWhile blank = xs := by
    cases xs with
    | nil => rfl
    | cons x xs =>
        have hx : blank x = false := by simpa using hhead x rfl
        rw [List.dropWhile_cons_of_neg (by simp [hx])]
  rw [trim, hdrop, List.rdropWhile_eq_self_iff]
  intro hne
  simpa using hlast _ (List.getLast?_eq_some_getLast hne)

omit [DecidableEq α] in
theorem getLast?_trim (blank : α → Bool) (xs : List α) :
    ∀ x ∈ (trim blank xs).getLast?, !blank x := by
  intro x hx
  have hne : trim blank xs ≠ [] := by
    intro h
    rw [h] at hx
    cases hx
  rw [List.getLast?_eq_some_getLast hne, Option.mem_def, Option.some_inj] at hx
  rw [← hx]
  simpa [trim] using List.rdropWhile_last_not blank (xs.dropWhile blank) hne

omit [DecidableEq α] in
theorem trim_subset (blank : α → Bool) (xs : List α) : trim blank xs ⊆ xs :=
  List.Subset.trans (List.rdropWhile_prefix blank _).subset (List.dropWhile_sublist blank).subset

omit [DecidableEq α] in
theorem trim_ne_nil {blank : α → Bool} {xs : List α} {a : α} (ha : a ∈ xs)
    (h : blank a = false) : trim blank xs ≠ [] := by
  intro hnil
  rw [trim, List.rdropWhile_eq_nil_iff] at hnil
  have hdrop : ∀ x ∈ xs.dropWhile blank, False := by
    intro x hx
    have hne := List.ne_nil_of_mem hx
    have hhead := List.head_dropWhile_not blank hne
    rw [hnil _ (List.head_mem hne)] at hhead
    cases hhead
  have hall : ∀ x ∈ xs, blank x :=
    List.dropWhile_eq_nil_iff.mp (List.eq_nil_iff_forall_not_mem.mpr hdrop)
  rw [hall a ha] at h
  cases h

/-- A text that begins and ends with something visible. -/
structure Tight (blank : α → Bool) (xs : List α) : Prop where
  ne_nil : xs ≠ []
  head : ∀ x ∈ xs.head?, !blank x
  last : ∀ x ∈ xs.getLast?, !blank x

omit [DecidableEq α] in
theorem Tight.of_ends {blank : α → Bool} {xs : List α} {first last : α}
    (hhead : xs.head? = some first) (hlast : xs.getLast? = some last) (hfirst : blank first = false)
    (hblank : blank last = false) : Tight blank xs where
  ne_nil := by
    rintro rfl
    cases hhead
  head := by
    rw [hhead]
    rintro x ⟨⟩
    simp [hfirst]
  last := by
    rw [hlast]
    rintro x ⟨⟩
    simp [hblank]

omit [DecidableEq α] in
theorem Tight.trim_eq {blank : α → Bool} {xs : List α} (h : Tight blank xs) :
    trim blank xs = xs :=
  trim_eq_self h.head h.last

omit [DecidableEq α] in
theorem rdropWhile_append_of_pos {p : α → Bool} (xs : List α) {ys : List α} (h : ∀ y ∈ ys, p y) :
    (xs ++ ys).rdropWhile p = xs.rdropWhile p := by
  rw [List.rdropWhile, List.reverse_append,
    List.dropWhile_append_of_pos fun y hy => h y (List.mem_reverse.mp hy), List.rdropWhile]

omit [DecidableEq α] in
theorem Tight.trim_append {blank : α → Bool} {xs : List α} (h : Tight blank xs) {ys : List α}
    (hys : ∀ y ∈ ys, blank y) : trim blank (xs ++ ys) = xs := by
  obtain ⟨x, xs, rfl⟩ := List.exists_cons_of_ne_nil h.ne_nil
  have hx : ¬blank x := by simpa using h.head x rfl
  have htrim := h.trim_eq
  rw [trim, List.dropWhile_cons_of_neg hx] at htrim
  rw [trim, List.cons_append, List.dropWhile_cons_of_neg hx, ← List.cons_append,
    rdropWhile_append_of_pos _ hys, htrim]

omit [DecidableEq α] in
/-- What stands between the two ends does not matter. -/
theorem Tight.append {blank : α → Bool} {xs zs : List α} (hxs : Tight blank xs) (ys : List α)
    (hzs : Tight blank zs) : Tight blank (xs ++ ys ++ zs) where
  ne_nil := by simp [hxs.ne_nil]
  head := by
    obtain ⟨x, xs, rfl⟩ := List.exists_cons_of_ne_nil hxs.ne_nil
    exact hxs.head
  last := by
    intro z hz
    rw [List.getLast?_append_of_ne_nil _ hzs.ne_nil] at hz
    exact hzs.last z hz

omit [DecidableEq α] in
theorem tight_intercalate {blank : α → Bool} {sep : List α} {parts : List (List α)}
    (hne : parts ≠ []) (h : ∀ part ∈ parts, Tight blank part) :
    Tight blank (sep.intercalate parts) := by
  induction parts with
  | nil => exact absurd rfl hne
  | cons p ps ih =>
      have hp := h p List.mem_cons_self
      by_cases hps : ps = []
      · subst hps
        rwa [List.intercalate_singleton]
      · rw [List.intercalate_cons_of_ne_nil hps]
        exact hp.append sep (ih hps fun part hpart => h part (List.mem_cons_of_mem p hpart))

/-! ### Cutting -/

/-- Cuts at the first separator. -/
def splitOnce (sep : α) (xs : List α) : Option (List α × List α) :=
  match xs.dropWhile (· ≠ sep) with
  | [] => none
  | _ :: rest => some (xs.takeWhile (· ≠ sep), rest)

/-- Cuts at the last separator. -/
def rsplitOnce (sep : α) (xs : List α) : Option (List α × List α) :=
  (splitOnce sep xs.reverse).map fun p => (p.2.reverse, p.1.reverse)

theorem splitOnce_append {sep : α} {xs : List α} (h : sep ∉ xs) (ys : List α) :
    splitOnce sep (xs ++ sep :: ys) = some (xs, ys) := by
  have hall : ∀ x ∈ xs, decide (x ≠ sep) = true := by
    intro x hx
    simpa using fun heq : x = sep => h (heq ▸ hx)
  rw [splitOnce, List.dropWhile_append_of_pos hall, List.takeWhile_append_of_pos hall]
  simp

theorem rsplitOnce_append {sep : α} {ys : List α} (h : sep ∉ ys) (xs : List α) :
    rsplitOnce sep (xs ++ sep :: ys) = some (xs, ys) := by
  rw [rsplitOnce, List.reverse_append, List.reverse_cons, List.append_assoc, List.singleton_append,
    splitOnce_append (by simpa using h)]
  simp

theorem eq_of_splitOnce {sep : α} {xs a b : List α} (h : splitOnce sep xs = some (a, b)) :
    xs = a ++ sep :: b := by
  unfold splitOnce at h
  split at h
  · cases h
  · rename_i c rest hrest
    cases h
    have hc : c = sep := by
      have hhead := List.head?_dropWhile_not (· ≠ sep) xs
      rw [hrest] at hhead
      simpa using hhead
    rw [hc] at hrest
    rw [← hrest]
    exact List.takeWhile_append_dropWhile.symm

theorem eq_of_rsplitOnce {sep : α} {xs a b : List α} (h : rsplitOnce sep xs = some (a, b)) :
    xs = a ++ sep :: b := by
  obtain ⟨⟨b', a'⟩, hcut, hab⟩ := Option.map_eq_some_iff.mp h
  cases hab
  rw [← List.reverse_reverse xs, eq_of_splitOnce hcut]
  simp

omit [DecidableEq α] in
theorem mem_intercalate {sep part : List α} {parts : List (List α)} {a : α} (hpart : part ∈ parts)
    (ha : a ∈ part) : a ∈ sep.intercalate parts := by
  induction parts with
  | nil => cases hpart
  | cons p ps ih =>
      by_cases hps : ps = []
      · subst hps
        obtain rfl := List.mem_singleton.mp hpart
        rwa [List.intercalate_singleton]
      · rw [List.intercalate_cons_of_ne_nil hps, List.append_assoc]
        obtain rfl | hpart := List.mem_cons.mp hpart
        · exact List.mem_append_left _ ha
        · exact List.mem_append_right p (List.mem_append_right sep (ih hpart))

omit [DecidableEq α] in
theorem mem_or_mem_of_mem_intercalate {sep : List α} {parts : List (List α)} {a : α}
    (h : a ∈ sep.intercalate parts) : a ∈ sep ∨ ∃ part ∈ parts, a ∈ part := by
  induction parts with
  | nil =>
      rw [List.intercalate_nil] at h
      cases h
  | cons p ps ih =>
      by_cases hps : ps = []
      · subst hps
        rw [List.intercalate_singleton] at h
        exact .inr ⟨p, List.mem_cons_self, h⟩
      · rw [List.intercalate_cons_of_ne_nil hps, List.append_assoc, List.mem_append,
          List.mem_append] at h
        obtain h | h | h := h
        · exact .inr ⟨p, List.mem_cons_self, h⟩
        · exact .inl h
        · obtain h | ⟨part, hpart, h⟩ := ih h
          · exact .inl h
          · exact .inr ⟨part, List.mem_cons_of_mem p hpart, h⟩

theorem mem_of_mem_splitOn {sep a : α} {xs part : List α} (hpart : part ∈ xs.splitOn sep)
    (ha : a ∈ part) : a ∈ xs := by
  have hxs : [sep].intercalate (xs.splitOn sep) = xs := List.intercalate_splitOn sep
  rw [← hxs]
  exact mem_intercalate hpart ha

/-- The parts of a text cut at a separator do not contain it. -/
theorem not_mem_of_mem_splitOn {sep : α} {xs part : List α} (h : part ∈ xs.splitOn sep) :
    sep ∉ part := by
  induction xs generalizing part with
  | nil =>
      rw [List.splitOn_nil, List.mem_singleton] at h
      simp [h]
  | cons x xs ih =>
      rw [List.splitOn_cons_eq_if_modifyHead] at h
      split at h
      · obtain rfl | h := List.mem_cons.mp h
        · simp
        · exact ih h
      · rename_i hx
        cases hsplit : xs.splitOn sep with
        | nil => exact absurd hsplit (List.splitOn_ne_nil sep xs)
        | cons y ys =>
            rw [hsplit, List.modifyHead_cons, List.mem_cons] at h
            obtain rfl | h := h
            · have hy : sep ∉ y := ih (by rw [hsplit]; exact List.mem_cons_self)
              simp only [List.mem_cons, not_or]
              exact ⟨fun heq => hx (by simp [heq]), hy⟩
            · exact ih (by rw [hsplit]; exact List.mem_cons_of_mem y h)

end Text
