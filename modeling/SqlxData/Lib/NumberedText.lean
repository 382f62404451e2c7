import Mathlib.Data.List.Nodup
import Mathlib.Data.List.TakeWhile
import Mathlib.Data.Set.Function
import Mathlib.Order.Interval.Set.Defs

/-!
Texts with numbered markers `$1`, `$2`, …: cutting a text into plain
characters and markers, spelling it again, and numbering the markers by the
order in which they are first used.

A run of digits whose number is not below `bound` is no marker; it stays plain
text.
-/

namespace NumberedText

inductive Piece
  | char (c : Char)
  | marker (k : ℕ)
  deriving DecidableEq, Repr

def StartsWithDigit (cs : List Char) : Prop := ∃ c rest, cs = c :: rest ∧ c.isDigit

instance (cs : List Char) : Decidable (StartsWithDigit cs) :=
  match cs with
  | [] => isFalse (by simp [StartsWithDigit])
  | c :: rest => decidable_of_iff (c.isDigit = true) (by simp [StartsWithDigit])

@[simp] theorem not_startsWithDigit_nil : ¬StartsWithDigit [] := by simp [StartsWithDigit]

@[simp] theorem startsWithDigit_cons (c : Char) (cs : List Char) :
    StartsWithDigit (c :: cs) ↔ c.isDigit = true := by
  simp [StartsWithDigit]

theorem takeWhile_eq_nil_iff (cs : List Char) :
    cs.takeWhile Char.isDigit = [] ↔ ¬StartsWithDigit cs := by
  cases cs with
  | nil => simp
  | cons c cs => by_cases hc : c.isDigit <;> simp [hc]

/-! ### Cutting -/

section Cutting

variable (bound : ℕ)

/-- The number a run of digits stands for. -/
def readNumber (digits : List Char) : Option ℕ :=
  let n := Nat.ofDigitChars 10 digits 0
  if n < bound then some n else none

/-- The marker a text starts with: its number and how many digits it takes. -/
def markerAt : List Char → Option (ℕ × ℕ)
  | [] => none
  | c :: rest =>
      let digits := rest.takeWhile Char.isDigit
      if c = '$' ∧ digits ≠ [] then (readNumber bound digits).map (·, digits.length) else none

/-- The pieces of a text, leaving out its first `skip` characters. -/
def piecesFrom : ℕ → List Char → List Piece
  | _, [] => []
  | skip + 1, _ :: rest => piecesFrom skip rest
  | 0, c :: rest =>
      match markerAt bound (c :: rest) with
      | some (k, digits) => .marker k :: piecesFrom digits rest
      | none => .char c :: piecesFrom 0 rest

def pieces (cs : List Char) : List Piece := piecesFrom bound 0 cs

theorem piecesFrom_eq (skip : ℕ) (cs : List Char) :
    piecesFrom bound skip cs = pieces bound (cs.drop skip) := by
  induction cs generalizing skip with
  | nil => cases skip <;> simp [pieces, piecesFrom]
  | cons c rest ih =>
      cases skip with
      | zero => rfl
      | succ skip => simpa [piecesFrom] using ih skip

@[simp] theorem pieces_nil : pieces bound [] = [] := rfl

theorem pieces_cons (c : Char) (rest : List Char) :
    pieces bound (c :: rest) =
      match markerAt bound (c :: rest) with
      | some (k, digits) => .marker k :: pieces bound (rest.drop digits)
      | none => .char c :: pieces bound rest := by
  rw [pieces, piecesFrom]
  cases markerAt bound (c :: rest) with
  | none => rfl
  | some m => simp [piecesFrom_eq]

variable {bound}

theorem markerAt_of_ne {c : Char} (hc : c ≠ '$') (rest : List Char) :
    markerAt bound (c :: rest) = none := by
  simp [markerAt, hc]

/-- Only the digits behind the `$` decide whether it is a marker. -/
theorem markerAt_congr {c : Char} {cs ds : List Char}
    (h : cs.takeWhile Char.isDigit = ds.takeWhile Char.isDigit) :
    markerAt bound (c :: cs) = markerAt bound (c :: ds) := by
  simp [markerAt, h]

theorem markerAt_eq_some {c : Char} {rest : List Char} {k n : ℕ}
    (h : markerAt bound (c :: rest) = some (k, n)) :
    c = '$' ∧ n = (rest.takeWhile Char.isDigit).length ∧ k < bound := by
  simp only [markerAt, readNumber] at h
  split at h
  · rename_i hc
    simp only [Option.map_eq_some_iff, Prod.mk.injEq] at h
    obtain ⟨k', hk', rfl, rfl⟩ := h
    split at hk'
    · obtain rfl := Option.some.inj hk'
      exact ⟨hc.1, rfl, ‹_›⟩
    · simp at hk'
  · simp at h

theorem takeWhile_digits_append {w rest : List Char} (hrest : ¬StartsWithDigit rest) :
    (w ++ rest).takeWhile Char.isDigit = w.takeWhile Char.isDigit := by
  induction w with
  | nil =>
      rw [List.nil_append, List.takeWhile_nil]
      exact (takeWhile_eq_nil_iff rest).mpr hrest
  | cons c w ih => simp [List.takeWhile_cons, ih]

/-- Texts are cut one after the other when the second does not continue a run
of digits. -/
theorem pieces_append (w : List Char) {rest : List Char} (hrest : ¬StartsWithDigit rest) :
    pieces bound (w ++ rest) = pieces bound w ++ pieces bound rest := by
  induction hn : w.length using Nat.strongRecOn generalizing w with
  | _ n ih =>
      cases w with
      | nil => rfl
      | cons c w =>
          have hmarker : markerAt bound (c :: (w ++ rest)) = markerAt bound (c :: w) :=
            markerAt_congr (takeWhile_digits_append hrest)
          rw [List.cons_append, pieces_cons, pieces_cons, hmarker]
          cases h : markerAt bound (c :: w) with
          | none => simp [ih w.length (by simp [← hn]) w rfl]
          | some m =>
              obtain ⟨k, digits⟩ := m
              have hle : digits ≤ w.length := by
                rw [(markerAt_eq_some h).2.1]
                exact (List.takeWhile_prefix _).length_le
              have hdrop := ih (w.drop digits).length
                (by rw [← hn, List.length_drop, List.length_cons]; omega) (w.drop digits) rfl
              simp [List.drop_append_of_le_length hle, hdrop]

/-- The text ends inside a marker or right behind a `$`. -/
def OpenEnd : List Char → Prop
  | [] => False
  | c :: rest => (c = '$' ∧ rest.all Char.isDigit) ∨ OpenEnd rest

instance decidableOpenEnd : (cs : List Char) → Decidable (OpenEnd cs)
  | [] => isFalse id
  | _ :: rest =>
      let _ := decidableOpenEnd rest
      inferInstanceAs (Decidable (_ ∨ OpenEnd rest))

theorem openEnd_append_singleton (cs : List Char) (c : Char) :
    OpenEnd (cs ++ [c]) ↔ c = '$' ∨ c.isDigit ∧ OpenEnd cs := by
  induction cs with
  | nil => simp [OpenEnd]
  | cons d cs ih =>
      rw [List.cons_append, OpenEnd, ih, OpenEnd]
      simp only [List.all_append, List.all_cons, List.all_nil, Bool.and_true, Bool.and_eq_true]
      tauto

theorem takeWhile_digits_append_of_not_all {w : List Char} (hw : ¬w.all Char.isDigit)
    (rest : List Char) :
    (w ++ rest).takeWhile Char.isDigit = w.takeWhile Char.isDigit := by
  induction w with
  | nil => simp at hw
  | cons c w ih =>
      by_cases hc : c.isDigit
      · have htail : ¬w.all Char.isDigit := by simpa [hc] using hw
        simp [hc, ih htail]
      · simp [hc]

theorem not_openEnd_drop {w : List Char} (hw : ¬OpenEnd w) (n : ℕ) : ¬OpenEnd (w.drop n) := by
  induction n generalizing w with
  | zero => simpa using hw
  | succ n ih =>
      cases w with
      | nil => simpa using hw
      | cons c w => exact ih fun h => hw (Or.inr h)

/-- Texts are cut one after the other when the first does not end inside a
marker. -/
theorem pieces_append_of_not_openEnd {w : List Char} (hw : ¬OpenEnd w) (rest : List Char) :
    pieces bound (w ++ rest) = pieces bound w ++ pieces bound rest := by
  induction hn : w.length using Nat.strongRecOn generalizing w with
  | _ n ih =>
      cases w with
      | nil => rfl
      | cons c w =>
          have hw' : ¬OpenEnd w := fun h => hw (Or.inr h)
          have hmarker : markerAt bound (c :: (w ++ rest)) = markerAt bound (c :: w) := by
            by_cases hc : c = '$'
            · have hall : ¬w.all Char.isDigit := fun h => hw (Or.inl ⟨hc, h⟩)
              exact markerAt_congr (takeWhile_digits_append_of_not_all hall rest)
            · rw [markerAt_of_ne hc, markerAt_of_ne hc]
          rw [List.cons_append, pieces_cons, pieces_cons, hmarker]
          cases h : markerAt bound (c :: w) with
          | none => simp [ih w.length (by simp [← hn]) hw' rfl]
          | some m =>
              obtain ⟨k, digits⟩ := m
              have hle : digits ≤ w.length := by
                rw [(markerAt_eq_some h).2.1]
                exact (List.takeWhile_prefix _).length_le
              have hdrop := ih (w.drop digits).length
                (by rw [← hn, List.length_drop, List.length_cons]; omega)
                (not_openEnd_drop hw' digits) rfl
              simp [List.drop_append_of_le_length hle, hdrop]

/-- No marker runs over the end of the first part. -/
theorem pieces_append_of_apart {w rest : List Char} (h : OpenEnd w → ¬StartsWithDigit rest) :
    pieces bound (w ++ rest) = pieces bound w ++ pieces bound rest := by
  by_cases hopen : OpenEnd w
  · exact pieces_append w (h hopen)
  · exact pieces_append_of_not_openEnd hopen rest

end Cutting

/-! ### Spelling -/

def Piece.spell : Piece → List Char
  | .char c => [c]
  | .marker k => '$' :: (toString k).toList

def spell (ps : List Piece) : List Char := ps.flatMap Piece.spell

@[simp] theorem spell_nil : spell [] = [] := rfl

@[simp] theorem spell_char (c : Char) (ps : List Piece) :
    spell (.char c :: ps) = c :: spell ps := rfl

@[simp] theorem spell_marker (k : ℕ) (ps : List Piece) :
    spell (.marker k :: ps) = '$' :: (toString k).toList ++ spell ps := rfl

theorem spell_append (ps qs : List Piece) : spell (ps ++ qs) = spell ps ++ spell qs := by
  simp [spell]

theorem isDigit_of_mem_toString {k : ℕ} {c : Char} (hc : c ∈ (toString k).toList) :
    c.isDigit := by
  rw [Nat.toString_eq_repr, Nat.toList_repr] at hc
  exact Nat.isDigit_of_mem_toDigits (by omega) (by omega) hc

theorem takeWhile_toString_append (k : ℕ) {rest : List Char} (hrest : ¬StartsWithDigit rest) :
    ((toString k).toList ++ rest).takeWhile Char.isDigit = (toString k).toList := by
  rw [takeWhile_digits_append hrest]
  exact List.takeWhile_eq_self_iff.mpr fun c hc => isDigit_of_mem_toString hc

theorem markerAt_spelled {bound k : ℕ} (hk : k < bound) {rest : List Char}
    (hrest : ¬StartsWithDigit rest) :
    markerAt bound ('$' :: ((toString k).toList ++ rest)) =
      some (k, (toString k).toList.length) := by
  have hread : readNumber bound (toString k).toList = some k := by
    simp [readNumber, Nat.toString_eq_repr, Nat.toList_repr, Nat.ofDigitChars_ten_toDigits, hk]
  simp only [markerAt, takeWhile_toString_append k hrest, hread]
  simp

/-- A spelled marker is cut back as itself. -/
theorem pieces_marker {bound k : ℕ} (hk : k < bound) {rest : List Char}
    (hrest : ¬StartsWithDigit rest) :
    pieces bound ('$' :: ((toString k).toList ++ rest)) = .marker k :: pieces bound rest := by
  rw [pieces_cons, markerAt_spelled hk hrest]
  simp

/-! ### Spelled pieces are cut back -/

/-- The pieces do not run into each other when they are spelled. -/
def WellFormed (bound : ℕ) : List Piece → Prop
  | [] => True
  | .char c :: ps => markerAt bound (c :: spell ps) = none ∧ WellFormed bound ps
  | .marker k :: ps => k < bound ∧ ¬StartsWithDigit (spell ps) ∧ WellFormed bound ps

theorem pieces_spell {bound : ℕ} {ps : List Piece} (h : WellFormed bound ps) :
    pieces bound (spell ps) = ps := by
  induction ps with
  | nil => rfl
  | cons p ps ih =>
      cases p with
      | char c =>
          obtain ⟨hmarker, hps⟩ := h
          rw [spell_char, pieces_cons, hmarker, ih hps]
      | marker k =>
          obtain ⟨hk, hstart, hps⟩ := h
          rw [spell_marker, List.cons_append, pieces_marker hk hstart, ih hps]

/-- Cutting and spelling keep the leading run of digits. -/
theorem takeWhile_spell_pieces (bound : ℕ) (cs : List Char) :
    (spell (pieces bound cs)).takeWhile Char.isDigit = cs.takeWhile Char.isDigit := by
  induction cs with
  | nil => rfl
  | cons c rest ih =>
      rw [pieces_cons]
      cases h : markerAt bound (c :: rest) with
      | none => simp [List.takeWhile_cons, ih]
      | some m =>
          obtain ⟨rfl, -, -⟩ := markerAt_eq_some (k := m.1) (n := m.2) h
          rw [spell_marker, List.cons_append]
          rfl

theorem takeWhile_drop_takeWhile (cs : List Char) :
    (cs.drop (cs.takeWhile Char.isDigit).length).takeWhile Char.isDigit = [] := by
  induction cs with
  | nil => rfl
  | cons c cs ih =>
      by_cases hc : c.isDigit
      · simpa [hc] using ih
      · simp [hc]

theorem wellFormed_pieces (bound : ℕ) (cs : List Char) : WellFormed bound (pieces bound cs) := by
  induction hn : cs.length using Nat.strongRecOn generalizing cs with
  | _ n ih =>
      cases cs with
      | nil => trivial
      | cons c rest =>
          have hn : rest.length < n := by simp [← hn]
          rw [pieces_cons]
          cases h : markerAt bound (c :: rest) with
          | none =>
              refine ⟨?_, ih _ hn rest rfl⟩
              rw [← h]
              exact markerAt_congr (takeWhile_spell_pieces bound rest)
          | some m =>
              obtain ⟨k, digits⟩ := m
              obtain ⟨-, rfl, hk⟩ := markerAt_eq_some h
              refine ⟨hk, (takeWhile_eq_nil_iff _).mp ?_, ih _ ?_ _ rfl⟩
              · rw [takeWhile_spell_pieces]
                exact takeWhile_drop_takeWhile rest
              · simp only [List.length_drop]
                omega

/-! ### Numbers and new numbers -/

def Piece.number : Piece → Option ℕ
  | .char _ => none
  | .marker k => some k

def numbers (ps : List Piece) : List ℕ := ps.filterMap Piece.number

@[simp] theorem numbers_nil : numbers [] = [] := rfl

@[simp] theorem numbers_char (c : Char) (ps : List Piece) :
    numbers (.char c :: ps) = numbers ps := rfl

@[simp] theorem numbers_marker (k : ℕ) (ps : List Piece) :
    numbers (.marker k :: ps) = k :: numbers ps := rfl

theorem numbers_pieces_of_plain {bound : ℕ} {w : List Char} (hw : '$' ∉ w) :
    numbers (pieces bound w) = [] := by
  induction w with
  | nil => rfl
  | cons c w ih =>
      have hc : c ≠ '$' := fun h => hw (by simp [h])
      rw [pieces_cons, markerAt_of_ne hc]
      exact ih fun h => hw (by simp [h])

/-- A text without markers is spelled as it is. -/
theorem spell_pieces_of_no_numbers {bound : ℕ} {cs : List Char}
    (h : numbers (pieces bound cs) = []) : spell (pieces bound cs) = cs := by
  induction cs with
  | nil => rfl
  | cons c cs ih =>
      rw [pieces_cons] at h ⊢
      cases hmarker : markerAt bound (c :: cs) with
      | some m => simp [hmarker] at h
      | none =>
          rw [hmarker] at h
          rw [spell_char, ih h]

def Piece.relabel (f : ℕ → ℕ) : Piece → Piece
  | .char c => .char c
  | .marker k => .marker (f k)

def relabel (f : ℕ → ℕ) (ps : List Piece) : List Piece := ps.map (Piece.relabel f)

@[simp] theorem relabel_nil (f : ℕ → ℕ) : relabel f [] = [] := rfl

@[simp] theorem relabel_char (f : ℕ → ℕ) (c : Char) (ps : List Piece) :
    relabel f (.char c :: ps) = .char c :: relabel f ps := rfl

@[simp] theorem relabel_marker (f : ℕ → ℕ) (k : ℕ) (ps : List Piece) :
    relabel f (.marker k :: ps) = .marker (f k) :: relabel f ps := rfl

theorem relabel_append (f : ℕ → ℕ) (ps qs : List Piece) :
    relabel f (ps ++ qs) = relabel f ps ++ relabel f qs := by
  simp [relabel]

theorem numbers_relabel (f : ℕ → ℕ) (ps : List Piece) :
    numbers (relabel f ps) = (numbers ps).map f := by
  induction ps with
  | nil => rfl
  | cons p ps ih => cases p <;> simp [ih]

theorem relabel_id {f : ℕ → ℕ} {ps : List Piece} (h : ∀ k ∈ numbers ps, f k = k) :
    relabel f ps = ps := by
  induction ps with
  | nil => rfl
  | cons p ps ih =>
      cases p with
      | char c => simpa using ih h
      | marker k => simp [h k (by simp), ih fun j hj => h j (by simp [hj])]

theorem takeWhile_spell_relabel (f : ℕ → ℕ) (ps : List Piece) :
    (spell (relabel f ps)).takeWhile Char.isDigit = (spell ps).takeWhile Char.isDigit := by
  induction ps with
  | nil => rfl
  | cons p ps ih =>
      cases p with
      | char c => simp [List.takeWhile_cons, ih]
      | marker k => rfl

theorem wellFormed_relabel {bound : ℕ} {f : ℕ → ℕ} {ps : List Piece} (h : WellFormed bound ps)
    (hf : ∀ k ∈ numbers ps, f k < bound) : WellFormed bound (relabel f ps) := by
  induction ps with
  | nil => trivial
  | cons p ps ih =>
      cases p with
      | char c =>
          obtain ⟨hmarker, hps⟩ := h
          refine ⟨?_, ih hps hf⟩
          rw [← hmarker]
          exact markerAt_congr (takeWhile_spell_relabel f ps)
      | marker k =>
          obtain ⟨-, hstart, hps⟩ := h
          refine ⟨hf k (by simp), ?_, ih hps fun j hj => hf j (by simp [hj])⟩
          rw [← takeWhile_eq_nil_iff] at hstart
          rw [← takeWhile_eq_nil_iff, ← hstart]
          exact takeWhile_spell_relabel f ps

/-- The markers of a text after new numbers were put in. -/
theorem numbers_pieces_relabel {bound : ℕ} {f : ℕ → ℕ} (cs : List Char)
    (hf : ∀ k ∈ numbers (pieces bound cs), f k < bound) :
    numbers (pieces bound (spell (relabel f (pieces bound cs)))) =
      (numbers (pieces bound cs)).map f := by
  rw [pieces_spell (wellFormed_relabel (wellFormed_pieces bound cs) hf), numbers_relabel]

/-! ### Relabelled texts -/

/-- The text starts with a `$` and a whole run of digits, which stands for
`k`; `rest` is what follows. -/
structure StartsMarker (bound : ℕ) (text : List Char) (k : ℕ) (digits rest : List Char) :
    Prop where
  text : text = '$' :: (digits ++ rest)
  nonempty : digits ≠ []
  isDigit : ∀ c ∈ digits, c.isDigit
  whole : ¬StartsWithDigit rest
  number : Nat.ofDigitChars 10 digits 0 = k
  lt : k < bound

/-- `out` is the text with the number of each marker changed by `f` and
everything else as it is; `ks` are the numbers, from left to right. -/
inductive Relabels (bound : ℕ) (f : ℕ → ℕ) : List Char → List ℕ → List Char → Prop
  | nil : Relabels bound f [] [] []
  | marker {text digits rest out : List Char} {k : ℕ} {ks : List ℕ} :
      StartsMarker bound text k digits rest → Relabels bound f rest ks out →
      Relabels bound f text (k :: ks) ('$' :: (toString (f k)).toList ++ out)
  | char {c : Char} {rest out : List Char} {ks : List ℕ} :
      (∀ k digits behind, ¬StartsMarker bound (c :: rest) k digits behind) →
      Relabels bound f rest ks out → Relabels bound f (c :: rest) ks (c :: out)

theorem startsMarker_of_markerAt {bound : ℕ} {c : Char} {rest : List Char} {k n : ℕ}
    (h : markerAt bound (c :: rest) = some (k, n)) :
    StartsMarker bound (c :: rest) k (rest.takeWhile Char.isDigit) (rest.drop n) := by
  obtain ⟨rfl, rfl, hlt⟩ := markerAt_eq_some h
  simp only [markerAt, readNumber] at h
  split at h
  · rename_i hdigits
    split at h
    · have hnumber : Nat.ofDigitChars 10 (rest.takeWhile Char.isDigit) 0 = k := by
        simpa using h
      refine ⟨?_, hdigits.2, fun c hc => List.mem_takeWhile_imp hc, ?_, hnumber, hlt⟩
      · rw [List.prefix_iff_eq_append.mp (List.takeWhile_prefix _)]
      · rw [← takeWhile_eq_nil_iff]
        exact takeWhile_drop_takeWhile rest
    · simp at h
  · simp at h

theorem markerAt_of_startsMarker {bound : ℕ} {text digits rest : List Char} {k : ℕ}
    (h : StartsMarker bound text k digits rest) : markerAt bound text = some (k, digits.length) := by
  obtain ⟨rfl, hne, hdigits, hwhole, rfl, hlt⟩ := h
  have htake : (digits ++ rest).takeWhile Char.isDigit = digits := by
    rw [takeWhile_digits_append hwhole]
    exact List.takeWhile_eq_self_iff.mpr hdigits
  simp [markerAt, readNumber, htake, hne, hlt]

/-- Spelling the relabelled pieces changes the numbers and nothing else. -/
theorem relabels_pieces (bound : ℕ) (f : ℕ → ℕ) (text : List Char) :
    Relabels bound f text (numbers (pieces bound text)) (spell (relabel f (pieces bound text))) := by
  induction hn : text.length using Nat.strongRecOn generalizing text with
  | _ n ih =>
      cases text with
      | nil => exact .nil
      | cons c rest =>
          have hlt : rest.length < n := by simp [← hn]
          rw [pieces_cons]
          cases hmarker : markerAt bound (c :: rest) with
          | none =>
              refine .char (fun k digits behind hstarts => ?_) (ih _ hlt rest rfl)
              simp [markerAt_of_startsMarker hstarts] at hmarker
          | some m =>
              obtain ⟨k, digits⟩ := m
              have hdrop : (rest.drop digits).length < n := by
                simp only [List.length_drop]
                omega
              exact .marker (startsMarker_of_markerAt hmarker) (ih _ hdrop _ rfl)

/-! ### Numbering by first use -/

section FirstUse

variable {α β : Type} [DecidableEq α] [DecidableEq β]

/-- The entries of a list in the order in which they first occur, behind
those already seen. -/
def firstUse : List α → List α → List α
  | seen, [] => seen
  | seen, k :: ks => if k ∈ seen then firstUse seen ks else firstUse (seen ++ [k]) ks

theorem prefix_firstUse (seen ks : List α) : seen <+: firstUse seen ks := by
  induction ks generalizing seen with
  | nil => exact List.prefix_rfl
  | cons k ks ih =>
      rw [firstUse]
      split
      · exact ih seen
      · exact (List.prefix_append seen [k]).trans (ih _)

theorem mem_firstUse {seen ks : List α} {k : α} : k ∈ firstUse seen ks ↔ k ∈ seen ∨ k ∈ ks := by
  induction ks generalizing seen with
  | nil => simp [firstUse]
  | cons j ks ih =>
      rw [firstUse]
      split
      · rename_i hj
        rw [ih, List.mem_cons]
        constructor
        · tauto
        · rintro (h | rfl | h)
          · exact Or.inl h
          · exact Or.inl hj
          · exact Or.inr h
      · rw [ih]
        simp [or_assoc]

theorem nodup_firstUse {seen : List α} (ks : List α) (h : seen.Nodup) :
    (firstUse seen ks).Nodup := by
  induction ks generalizing seen with
  | nil => exact h
  | cons k ks ih =>
      rw [firstUse]
      split
      · exact ih h
      · rename_i hk
        refine ih (List.nodup_append.mpr ⟨h, by simp, ?_⟩)
        rintro a ha b hb rfl
        exact hk (by simpa [List.mem_singleton.mp hb] using ha)

theorem firstUse_map {f : α → β} {seen ks : List α}
    (hf : ∀ a ∈ seen ++ ks, ∀ b ∈ seen ++ ks, f a = f b → a = b) :
    firstUse (seen.map f) (ks.map f) = (firstUse seen ks).map f := by
  induction ks generalizing seen with
  | nil => rfl
  | cons k ks ih =>
      have hmem : f k ∈ seen.map f ↔ k ∈ seen := by
        constructor
        · intro h
          obtain ⟨a, ha, hak⟩ := List.mem_map.mp h
          rwa [← hf a (by simp [ha]) k (by simp) hak]
        · exact List.mem_map_of_mem
      rw [List.map_cons, firstUse, firstUse]
      by_cases hk : k ∈ seen
      · rw [if_pos hk, if_pos (hmem.mpr hk)]
        exact ih fun a ha b hb => hf a (by simp at ha ⊢; tauto) b (by simp at hb ⊢; tauto)
      · rw [if_neg hk, if_neg (mt hmem.mp hk),
          ← ih fun a ha b hb => hf a (by simpa using ha) b (by simpa using hb),
          List.map_append, List.map_singleton]

/-- The number a marker gets when markers are numbered from 1 by first use. -/
def rank (order : List α) (k : α) : ℕ := order.idxOf k + 1

theorem rank_of_prefix {seen order : List α} (h : seen <+: order) {k : α} (hk : k ∈ seen) :
    rank order k = rank seen k := by
  rw [rank, rank, h.idxOf_eq_of_mem hk]

theorem rank_le_length {order : List α} {k : α} (hk : k ∈ order) :
    rank order k ≤ order.length :=
  List.idxOf_lt_length_of_mem hk

theorem rank_map {f : α → β} {order : List α} {k : α} (hk : k ∈ order)
    (hf : ∀ a ∈ order, f a = f k → a = k) : rank (order.map f) (f k) = rank order k := by
  rw [rank, rank]
  congr 1
  induction order with
  | nil => simp at hk
  | cons a order ih =>
      by_cases hak : a = k
      · simp [hak]
      · have hfak : f a ≠ f k := fun h => hak (hf a (by simp) h)
        have hk : k ∈ order := by simpa [Ne.symm hak] using hk
        rw [List.map_cons, List.idxOf_cons_ne _ hfak, List.idxOf_cons_ne _ hak,
          ih hk fun b hb => hf b (by simp [hb])]

theorem firstUse_eq (seen ks : List α) :
    firstUse seen ks = seen ++ (ks.removeAll seen).eraseDups := by
  induction ks generalizing seen with
  | nil => simp [firstUse, List.removeAll]
  | cons k ks ih =>
      rw [firstUse]
      by_cases hk : k ∈ seen
      · rw [if_pos hk, ih]
        simp [List.removeAll, hk]
      · rw [if_neg hk, ih, List.append_assoc]
        have hrest : ks.removeAll (seen ++ [k]) =
            (ks.removeAll seen).filter fun j => !j == k := by
          simp only [List.removeAll, List.filter_filter]
          refine List.filter_congr fun j _ => ?_
          rw [Bool.and_comm]
          simp [Bool.beq_eq_decide_eq]
        have hcons : (k :: ks).removeAll seen = k :: ks.removeAll seen := by
          simp [List.removeAll, hk]
        rw [hrest, hcons, List.eraseDups_cons]
        rfl

theorem firstUse_nil_eq (ks : List α) : firstUse [] ks = ks.eraseDups := by
  simp [firstUse_eq, List.removeAll]

theorem rank_getElem {order : List α} (hnodup : order.Nodup) (i : ℕ) (hi : i < order.length) :
    rank order order[i] = i + 1 := by
  rw [rank, hnodup.idxOf_getElem]

/-- Numbers by first use are the numbers from 1 on, each for one entry. -/
theorem bijOn_rank {order : List α} (hnodup : order.Nodup) :
    Set.BijOn (rank order) {k | k ∈ order} (Set.Icc 1 order.length) := by
  refine ⟨fun k hk => ⟨Nat.succ_pos _, rank_le_length hk⟩, fun j hj k _ h => ?_, fun n hn => ?_⟩
  · have hidx : order.idxOf j = order.idxOf k := Nat.succ.inj h
    exact (List.idxOf_inj hj).mp hidx
  · obtain ⟨hpos, hle⟩ := hn
    have hlt : n - 1 < order.length := by omega
    exact ⟨order[n - 1], List.getElem_mem hlt, by rw [rank_getElem hnodup]; omega⟩

end FirstUse

end NumberedText
