import SqlxData.Lib.ThreeValued
import Mathlib.Data.List.Induction

/-!
Boolean conditions as text. A formula is printed token by token with no
parentheses but the ones it carries itself; the text is read back with the
usual precedence, NOT over AND over OR. Reading is a left-to-right scan that
keeps, for every open parenthesis, the operands met so far.

The two results used elsewhere: a formula in canonical shape is read back as
itself (`read_print`), and canonical formulas written one after another with
AND between them are read as the OR of the runs described by `weave`
(`holds_read_chain`).
-/

namespace BoolText

open ThreeValued

inductive Formula (α : Type)
  | operand (a : α)
  | not (f : Formula α)
  | and (f g : Formula α)
  | or (f g : Formula α)
  | paren (f : Formula α)
  deriving DecidableEq, Repr

inductive Token (α : Type)
  | operand (a : α)
  | not
  | and
  | or
  | lparen
  | rparen
  deriving DecidableEq, Repr

variable {α : Type}

namespace Formula

/-- The tokens of a formula; parentheses only where the formula has them. -/
def print : Formula α → List (Token α)
  | operand a => [.operand a]
  | not f => .not :: f.print
  | and f g => f.print ++ .and :: g.print
  | or f g => f.print ++ .or :: g.print
  | paren f => .lparen :: f.print ++ [.rparen]

def eval (value : α → Truth) : Formula α → Truth
  | operand a => value a
  | not f => (f.eval value).not
  | and f g => (f.eval value).and (g.eval value)
  | or f g => (f.eval value).or (g.eval value)
  | paren f => f.eval value

/-! ### Canonical shape -/

/-- The three levels of the grammar: a literal, a run of literals joined by
AND, an alternative of runs joined by OR. -/
inductive Level
  | literal
  | run
  | alternative
  deriving DecidableEq

/-- The formula can be derived at the level: its printed text groups the way
the tree does. -/
def FitsAt : Level → Formula α → Prop
  | _, operand _ => True
  | _, not f => FitsAt .literal f
  | .literal, and _ _ => False
  | _, and f g => FitsAt .run f ∧ FitsAt .literal g
  | .alternative, or f g => FitsAt .alternative f ∧ FitsAt .run g
  | _, or _ _ => False
  | _, paren f => FitsAt .alternative f

/-- What a precedence parser returns. -/
def Canonical (f : Formula α) : Prop := FitsAt .alternative f

attribute [local simp] FitsAt

theorem FitsAt.run {f : Formula α} (h : FitsAt .literal f) : FitsAt .run f := by
  cases f <;> simp_all [FitsAt]

theorem FitsAt.canonical {f : Formula α} (h : FitsAt .run f) : Canonical f := by
  cases f <;> simp_all [FitsAt, Canonical]

theorem FitsAt.of_literal {f : Formula α} (h : FitsAt .literal f) : Canonical f :=
  h.run.canonical

/-- The alternatives of the top level: the text between its ORs. -/
def alternatives : Formula α → List (Formula α)
  | or f g => f.alternatives ++ [g]
  | f => [f]

theorem alternatives_ne_nil (f : Formula α) : f.alternatives ≠ [] := by
  cases f <;> simp [alternatives]

theorem FitsAt.alternatives {f : Formula α} (h : FitsAt .literal f) : f.alternatives = [f] := by
  cases f <;> simp_all [FitsAt, Formula.alternatives]

/-! ### Operands -/

/-- The operands of a formula, from left to right. -/
def operands : Formula α → List α
  | operand a => [a]
  | not f => f.operands
  | and f g => f.operands ++ g.operands
  | or f g => f.operands ++ g.operands
  | paren f => f.operands

section Map

variable {β : Type} (g : α → β)

def map : Formula α → Formula β
  | operand a => operand (g a)
  | not f => not f.map
  | and f f' => and f.map f'.map
  | or f f' => or f.map f'.map
  | paren f => paren f.map

attribute [local simp] map print eval operands

theorem eval_map (value : β → Truth) (f : Formula α) :
    (f.map g).eval value = f.eval fun a => value (g a) := by
  induction f with
  | operand a => rfl
  | not f ih => rw [map, eval, eval, ih]
  | and f f' ih ih' => rw [map, eval, eval, ih, ih']
  | or f f' ih ih' => rw [map, eval, eval, ih, ih']
  | paren f ih => rw [map, eval, eval, ih]

theorem fitsAt_map (f : Formula α) (level : Level) : (f.map g).FitsAt level ↔ f.FitsAt level := by
  induction f generalizing level with
  | operand a => simp [map, FitsAt]
  | not f ih => simp [map, FitsAt, ih]
  | and f f' ih ih' => cases level <;> simp [map, FitsAt, ih, ih']
  | or f f' ih ih' => cases level <;> simp [map, FitsAt, ih, ih']
  | paren f ih => simp [map, FitsAt, ih]

theorem operands_map (f : Formula α) : (f.map g).operands = f.operands.map g := by
  induction f with
  | operand a => rfl
  | not f ih => exact ih
  | and f f' ih ih' => rw [map, operands, operands, ih, ih', List.map_append]
  | or f f' ih ih' => rw [map, operands, operands, ih, ih', List.map_append]
  | paren f ih => exact ih

end Map

/-! ### Conjunctions and disjunctions of lists -/

/-- The conjunction of a list, if there is anything in it. -/
def all : List (Formula α) → Option (Formula α)
  | [] => none
  | f :: fs => some (fs.foldl and f)

def any : List (Formula α) → Option (Formula α)
  | [] => none
  | f :: fs => some (fs.foldl or f)

section MapAll

variable {β : Type} (g : α → β)

theorem map_foldl_and (f : Formula α) (fs : List (Formula α)) :
    (fs.foldl and f).map g = (fs.map (map g)).foldl and (f.map g) := by
  induction fs generalizing f with
  | nil => rfl
  | cons f' fs ih => rw [List.foldl_cons, List.map_cons, List.foldl_cons, ih, map]

theorem map_foldl_or (f : Formula α) (fs : List (Formula α)) :
    (fs.foldl or f).map g = (fs.map (map g)).foldl or (f.map g) := by
  induction fs generalizing f with
  | nil => rfl
  | cons f' fs ih => rw [List.foldl_cons, List.map_cons, List.foldl_cons, ih, map]

theorem map_all (fs : List (Formula α)) : (all fs).map (map g) = all (fs.map (map g)) := by
  cases fs with
  | nil => rfl
  | cons f fs => exact congrArg some (map_foldl_and g f fs)

theorem map_any (fs : List (Formula α)) : (any fs).map (map g) = any (fs.map (map g)) := by
  cases fs with
  | nil => rfl
  | cons f fs => exact congrArg some (map_foldl_or g f fs)

end MapAll

theorem eval_eq_holds_iff (value : α → Truth) (f : Formula α) :
    f.eval value = .holds ↔ ∃ g ∈ f.alternatives, g.eval value = .holds := by
  induction f with
  | or f g ihf _ => simp [alternatives, eval, ihf, or_and_right, exists_or]
  | _ => simp [alternatives]

end Formula

/-! ### Reading -/

/-- Left context of an operand still to come: the alternatives closed by an
OR, the run closed by an AND, and the NOTs in front of the operand. -/
structure Pending (α : Type) where
  disj : Option (Formula α)
  conj : Option (Formula α)
  nots : ℕ

/-- The same context once the operand has been read. -/
structure Done (α : Type) where
  disj : Option (Formula α)
  conj : Option (Formula α)
  last : Formula α

def joinAnd : Option (Formula α) → Formula α → Formula α
  | none, f => f
  | some g, f => .and g f

def joinOr : Option (Formula α) → Formula α → Formula α
  | none, f => f
  | some g, f => .or g f

def negate : ℕ → Formula α → Formula α
  | 0, f => f
  | n + 1, f => .not (negate n f)

def Pending.start : Pending α := ⟨none, none, 0⟩

def Pending.negated (p : Pending α) : Pending α := { p with nots := p.nots + 1 }

def Pending.close (p : Pending α) (f : Formula α) : Done α :=
  ⟨p.disj, p.conj, negate p.nots f⟩

def Done.run (d : Done α) : Formula α := joinAnd d.conj d.last

def Done.value (d : Done α) : Formula α := joinOr d.disj d.run

def Done.thenAnd (d : Done α) : Pending α := ⟨d.disj, some d.run, 0⟩

def Done.thenOr (d : Done α) : Pending α := ⟨some d.value, none, 0⟩

/-- The reader: the innermost context and the contexts around it, one for
each open parenthesis. -/
inductive State (α : Type)
  | need (p : Pending α) (stack : List (Pending α))
  | have (d : Done α) (stack : List (Pending α))

def step : State α → Token α → Option (State α)
  | .need p stack, .operand a => some (.have (p.close (.operand a)) stack)
  | .need p stack, .not => some (.need p.negated stack)
  | .need p stack, .lparen => some (.need .start (p :: stack))
  | .have d stack, .and => some (.need d.thenAnd stack)
  | .have d stack, .or => some (.need d.thenOr stack)
  | .have d (p :: stack), .rparen => some (.have (p.close (.paren d.value)) stack)
  | _, _ => none

def readFrom (s : State α) (ts : List (Token α)) : Option (State α) := ts.foldlM step s

/-- Read a whole text with NOT over AND over OR. -/
def read (ts : List (Token α)) : Option (Formula α) :=
  match readFrom (.need .start []) ts with
  | some (.have d []) => some d.value
  | _ => none

theorem readFrom_append (s : State α) (ts us : List (Token α)) :
    readFrom s (ts ++ us) = (readFrom s ts).bind (readFrom · us) := by
  simp [readFrom, List.foldlM_append]

theorem readFrom_cons (s : State α) (t : Token α) (ts : List (Token α)) :
    readFrom s (t :: ts) = (step s t).bind (readFrom · ts) := by
  simp [readFrom, List.foldlM_cons]

/-- What the reader makes of a printed formula in a given context. -/
def absorb : Pending α → Formula α → Done α
  | p, .operand a => p.close (.operand a)
  | p, .not f => absorb p.negated f
  | p, .and f g => absorb (absorb p f).thenAnd g
  | p, .or f g => absorb (absorb p f).thenOr g
  | p, .paren f => p.close (.paren (absorb .start f).value)

theorem readFrom_print (p : Pending α) (stack : List (Pending α)) (f : Formula α) :
    readFrom (.need p stack) f.print = some (.have (absorb p f) stack) := by
  induction f generalizing p stack with
  | operand a => rfl
  | not f ih =>
      rw [Formula.print, readFrom_cons]
      exact ih p.negated stack
  | and f g ihf ihg =>
      rw [Formula.print, readFrom_append, ihf, Option.bind_some, readFrom_cons]
      exact ihg (absorb p f).thenAnd stack
  | or f g ihf ihg =>
      rw [Formula.print, readFrom_append, ihf, Option.bind_some, readFrom_cons]
      exact ihg (absorb p f).thenOr stack
  | paren f ih =>
      rw [Formula.print, List.cons_append, readFrom_cons]
      simp only [step, Option.bind_some]
      rw [readFrom_append, ih, Option.bind_some]
      rfl

theorem read_print_eq (f : Formula α) : read f.print = some (absorb .start f).value := by
  simp [read, readFrom_print]

/-! ### Canonical formulas are read as themselves -/

theorem negate_not (n : ℕ) (f : Formula α) : negate n (.not f) = .not (negate n f) := by
  induction n with
  | zero => rfl
  | succ n ih => rw [negate, ih, negate]

/-- The reading of a formula at each level it fits: a literal only closes the
context, a run extends the conjunction, an alternative is the whole value. -/
theorem absorb_fitsAt (f : Formula α) :
    (f.FitsAt .literal → ∀ p : Pending α, absorb p f = p.close f) ∧
    (f.FitsAt .run → ∀ p : Pending α, p.nots = 0 → p.conj = none →
      (absorb p f).disj = p.disj ∧ (absorb p f).run = f) ∧
    (f.FitsAt .alternative → (absorb .start f).value = f) := by
  induction f with
  | operand a =>
      refine ⟨fun _ _ => rfl, ?_, fun _ => rfl⟩
      rintro - ⟨disj, conj, nots⟩ rfl rfl
      exact ⟨rfl, rfl⟩
  | not f ih =>
      have hclose : f.FitsAt .literal → ∀ p : Pending α, absorb p (.not f) = p.close (.not f) := by
        intro hf p
        rw [absorb, ih.1 hf, Pending.close, Pending.close, negate_not]
        rfl
      refine ⟨hclose, ?_, fun hf => ?_⟩
      · rintro hf ⟨disj, conj, nots⟩ rfl rfl
        rw [hclose hf]
        exact ⟨rfl, rfl⟩
      · rw [hclose hf]
        rfl
  | and f g ihf ihg =>
      have hrun : f.FitsAt .run ∧ g.FitsAt .literal → ∀ p : Pending α, p.nots = 0 →
          p.conj = none →
          (absorb p (.and f g)).disj = p.disj ∧ (absorb p (.and f g)).run = .and f g := by
        rintro ⟨hf, hg⟩ p hnots hconj
        obtain ⟨hdisj, hrunf⟩ := ihf.2.1 hf p hnots hconj
        have hjoin : ((absorb p f).thenAnd.close g).run = .and (absorb p f).run g := rfl
        rw [absorb, ihg.1 hg]
        exact ⟨hdisj, by rw [hjoin, hrunf]⟩
      refine ⟨fun h => h.elim, hrun, fun h => ?_⟩
      obtain ⟨hdisj, hvalue⟩ := hrun h .start rfl rfl
      rw [Done.value, hdisj, hvalue]
      rfl
  | or f g ihf ihg =>
      refine ⟨fun h => h.elim, fun h => h.elim, fun h => ?_⟩
      obtain ⟨hdisj, hrun⟩ := ihg.2.1 h.2 (absorb .start f).thenOr rfl rfl
      rw [absorb, Done.value, hdisj, hrun, Done.thenOr, ihf.2.2 h.1]
      rfl
  | paren f ih =>
      have hclose : f.FitsAt .alternative →
          ∀ p : Pending α, absorb p (.paren f) = p.close (.paren f) := by
        intro hf p
        rw [absorb, ih.2.2 hf]
      refine ⟨hclose, ?_, fun hf => ?_⟩
      · rintro hf ⟨disj, conj, nots⟩ rfl rfl
        rw [hclose hf]
        exact ⟨rfl, rfl⟩
      · rw [hclose hf]
        rfl

/-- The text of a canonical formula is read back as the formula. -/
theorem read_print {f : Formula α} (hf : f.Canonical) : read f.print = some f := by
  rw [read_print_eq, (absorb_fitsAt f).2.2 hf]

/-! ### What is read is canonical and prints as its text -/

/-- The text in front of an operand still to come. -/
def Pending.text (p : Pending α) : List (Token α) :=
  p.disj.elim [] (·.print ++ [.or]) ++ p.conj.elim [] (·.print ++ [.and]) ++
    List.replicate p.nots .not

structure Pending.Proper (p : Pending α) : Prop where
  disj : ∀ f ∈ p.disj, f.Canonical
  conj : ∀ f ∈ p.conj, f.FitsAt .run

structure Done.Proper (d : Done α) : Prop where
  disj : ∀ f ∈ d.disj, f.Canonical
  conj : ∀ f ∈ d.conj, f.FitsAt .run
  last : d.last.FitsAt .literal

theorem print_negate (n : ℕ) (f : Formula α) :
    (negate n f).print = List.replicate n .not ++ f.print := by
  induction n with
  | zero => rfl
  | succ n ih => rw [negate, Formula.print, ih, List.replicate_succ, List.cons_append]

theorem fitsAt_negate {f : Formula α} (hf : f.FitsAt .literal) (n : ℕ) :
    (negate n f).FitsAt .literal := by
  induction n with
  | zero => exact hf
  | succ n ih => exact ih

theorem print_value (d : Done α) :
    d.value.print = d.disj.elim [] (·.print ++ [.or]) ++ d.conj.elim [] (·.print ++ [.and]) ++
      d.last.print := by
  obtain ⟨disj, conj, last⟩ := d
  cases disj <;> cases conj <;> simp [Done.value, Done.run, joinOr, joinAnd, Formula.print]

theorem text_thenAnd (d : Done α) : d.thenAnd.text = d.value.print ++ [.and] := by
  obtain ⟨disj, conj, last⟩ := d
  cases disj <;> cases conj <;>
    simp [Done.thenAnd, Pending.text, Done.value, Done.run, joinOr, joinAnd, Formula.print]

theorem text_thenOr (d : Done α) : d.thenOr.text = d.value.print ++ [.or] := by
  simp [Done.thenOr, Pending.text]

theorem print_close (p : Pending α) (f : Formula α) : (p.close f).value.print = p.text ++ f.print := by
  rw [print_value, Pending.close, print_negate, ← List.append_assoc]
  rfl

theorem Pending.Proper.close {p : Pending α} (hp : p.Proper) {f : Formula α}
    (hf : f.FitsAt .literal) : (p.close f).Proper :=
  ⟨hp.disj, hp.conj, fitsAt_negate hf p.nots⟩

theorem Pending.proper_start : (Pending.start : Pending α).Proper :=
  ⟨by simp [Pending.start], by simp [Pending.start]⟩

theorem Done.Proper.run {d : Done α} (hd : d.Proper) : d.run.FitsAt .run := by
  obtain ⟨disj, conj, last⟩ := d
  cases conj with
  | none => exact hd.last.run
  | some f => exact ⟨hd.conj f rfl, hd.last⟩

theorem Done.Proper.value {d : Done α} (hd : d.Proper) : d.value.Canonical := by
  obtain ⟨disj, conj, last⟩ := d
  cases disj with
  | none => exact hd.run.canonical
  | some f => exact ⟨hd.disj f rfl, hd.run⟩

theorem Done.Proper.thenAnd {d : Done α} (hd : d.Proper) : d.thenAnd.Proper := by
  refine ⟨hd.disj, ?_⟩
  rintro f ⟨⟩
  exact hd.run

theorem Done.Proper.thenOr {d : Done α} (hd : d.Proper) : d.thenOr.Proper := by
  refine ⟨?_, by simp [Done.thenOr]⟩
  rintro f ⟨⟩
  exact hd.value

theorem absorb_spec (f : Formula α) {p : Pending α} (hp : p.Proper) :
    (absorb p f).Proper ∧ (absorb p f).value.print = p.text ++ f.print := by
  induction f generalizing p with
  | operand a => exact ⟨hp.close trivial, print_close p (.operand a)⟩
  | not f ih =>
      obtain ⟨hproper, htext⟩ := ih (p := p.negated) ⟨hp.disj, hp.conj⟩
      refine ⟨hproper, ?_⟩
      show (absorb p.negated f).value.print = p.text ++ (Formula.not f).print
      rw [htext, Pending.negated, Formula.print]
      simp [Pending.text, List.replicate_succ']
  | and f g ihf ihg =>
      obtain ⟨hf, htextf⟩ := ihf hp
      obtain ⟨hg, htextg⟩ := ihg hf.thenAnd
      refine ⟨hg, ?_⟩
      show (absorb (absorb p f).thenAnd g).value.print = p.text ++ (Formula.and f g).print
      rw [htextg, text_thenAnd, htextf, Formula.print]
      simp
  | or f g ihf ihg =>
      obtain ⟨hf, htextf⟩ := ihf hp
      obtain ⟨hg, htextg⟩ := ihg hf.thenOr
      refine ⟨hg, ?_⟩
      show (absorb (absorb p f).thenOr g).value.print = p.text ++ (Formula.or f g).print
      rw [htextg, text_thenOr, htextf, Formula.print]
      simp
  | paren f ih =>
      obtain ⟨hproper, htext⟩ := ih Pending.proper_start
      refine ⟨hp.close hproper.value, ?_⟩
      show (p.close (.paren (absorb .start f).value)).value.print = p.text ++ (Formula.paren f).print
      rw [print_close, Formula.print, htext]
      rfl

/-- What is read from a printed formula is the canonical formula with the same
text. -/
theorem canonical_of_read {f r : Formula α} (h : read f.print = some r) :
    r.Canonical ∧ r.print = f.print := by
  rw [read_print_eq, Option.some.injEq] at h
  subst h
  obtain ⟨hproper, htext⟩ := absorb_spec f Pending.proper_start
  exact ⟨hproper.value, htext⟩

/-! ### Formulas written one after another with AND -/

/-- The left-associated conjunction of a nonempty list. -/
def Formula.andAll (f : Formula α) (fs : List (Formula α)) : Formula α := fs.foldl .and f

theorem print_and_assoc (f g h : Formula α) :
    (Formula.and f (.and g h)).print = (Formula.and (.and f g) h).print := by
  simp [Formula.print]

theorem print_and_congr {f f' g : Formula α} (h : f.print = f'.print) :
    (Formula.and f g).print = (Formula.and f' g).print := by
  simp [Formula.print, h]

theorem print_andAll_congr {f f' : Formula α} (h : f.print = f'.print) (fs : List (Formula α)) :
    (f.andAll fs).print = (f'.andAll fs).print := by
  induction fs using List.reverseRecOn with
  | nil => exact h
  | append_singleton fs g ih =>
      simp only [Formula.andAll, List.foldl_append, List.foldl_cons, List.foldl_nil] at ih ⊢
      exact print_and_congr ih

/-- How a conjunction is bracketed in the tree does not show in its text. -/
theorem print_and_andAll (f g : Formula α) (fs : List (Formula α)) :
    (Formula.and f (g.andAll fs)).print = (f.andAll (g :: fs)).print := by
  induction fs using List.reverseRecOn with
  | nil => rfl
  | append_singleton fs h ih =>
      simp only [Formula.andAll, List.foldl_append, List.foldl_cons, List.foldl_nil] at ih ⊢
      rw [print_and_assoc]
      exact print_and_congr ih

/-- Two lists of runs written one after the other: the last run of the first
continues into the first run of the second. -/
def glue {β : Type} : List (List β) → List (List β) → List (List β)
  | [], ys => ys
  | [x], [] => [x]
  | [x], y :: ys => (x ++ y) :: ys
  | x :: x' :: xs, ys => x :: glue (x' :: xs) ys

/-- The runs between the ORs of `f₁ AND f₂ AND …` when no operand is put in
parentheses: inside an operand the ORs separate, across operands the AND
joins the neighbouring alternatives. -/
def weave : List (Formula α) → List (List (Formula α))
  | [] => [[]]
  | f :: fs => glue (f.alternatives.map ([·])) (weave fs)

section Holds

variable (value : α → Truth)

def Holds (f : Formula α) : Prop := f.eval value = .holds

def RunHolds (run : List (Formula α)) : Prop := ∀ f ∈ run, Holds value f

def SomeRunHolds (runs : List (List (Formula α))) : Prop := ∃ run ∈ runs, RunHolds value run

/-- Runs whose first one continues a conjunction with value `c`. -/
def ContinuedRunsHold (c : Prop) : List (List (Formula α)) → Prop
  | [] => False
  | run :: runs => (c ∧ RunHolds value run) ∨ SomeRunHolds value runs

def Pending.DisjHolds (p : Pending α) : Prop := ∃ f ∈ p.disj, Holds value f

def Pending.ConjHolds (p : Pending α) : Prop := ∀ f ∈ p.conj, Holds value f

def Done.DisjHolds (d : Done α) : Prop := ∃ f ∈ d.disj, Holds value f

variable {value}

@[simp] theorem holds_and (f g : Formula α) :
    Holds value (.and f g) ↔ Holds value f ∧ Holds value g := by
  simp [Holds, Formula.eval]

@[simp] theorem holds_or (f g : Formula α) :
    Holds value (.or f g) ↔ Holds value f ∨ Holds value g := by
  simp [Holds, Formula.eval]

@[simp] theorem holds_paren (f : Formula α) : Holds value (.paren f) ↔ Holds value f := by
  simp [Holds, Formula.eval]

theorem holds_andAll (f : Formula α) (fs : List (Formula α)) :
    Holds value (f.andAll fs) ↔ Holds value f ∧ ∀ g ∈ fs, Holds value g := by
  induction fs generalizing f with
  | nil => simp [Formula.andAll]
  | cons g fs ih =>
      have hstep := ih (.and f g)
      rw [Formula.andAll] at hstep ⊢
      rw [List.foldl_cons, hstep, holds_and, List.forall_mem_cons, and_assoc]

theorem holds_iff_alternatives (f : Formula α) :
    Holds value f ↔ ∃ g ∈ f.alternatives, Holds value g := f.eval_eq_holds_iff value

@[simp] theorem runHolds_nil : RunHolds value [] := by simp [RunHolds]

@[simp] theorem runHolds_cons (f : Formula α) (run : List (Formula α)) :
    RunHolds value (f :: run) ↔ Holds value f ∧ RunHolds value run := by
  simp [RunHolds]

@[simp] theorem someRunHolds_nil : ¬SomeRunHolds value [] := by simp [SomeRunHolds]

@[simp] theorem someRunHolds_cons (run : List (Formula α)) (runs : List (List (Formula α))) :
    SomeRunHolds value (run :: runs) ↔ RunHolds value run ∨ SomeRunHolds value runs := by
  simp [SomeRunHolds]

theorem holds_joinAnd (c : Option (Formula α)) (f : Formula α) :
    Holds value (joinAnd c f) ↔ (∀ g ∈ c, Holds value g) ∧ Holds value f := by
  cases c <;> simp [joinAnd]

theorem holds_done_value (d : Done α) :
    Holds value d.value ↔ d.DisjHolds value ∨ Holds value d.run := by
  cases h : d.disj <;> simp [Done.value, Done.DisjHolds, joinOr, h]

@[simp] theorem glue_nil_run {β : Type} (xs : List (List β)) (hxs : xs ≠ []) :
    glue xs [[]] = xs := by
  induction xs with
  | nil => exact absurd rfl hxs
  | cons x xs ih => cases xs <;> simp_all [glue]

theorem glue_append_singleton {β : Type} (xs : List (List β)) (z : List β) (ys : List (List β)) :
    glue (xs ++ [z]) ys = xs ++ glue [z] ys := by
  induction xs with
  | nil => rfl
  | cons x xs ih => cases xs <;> simp_all [glue]

theorem glue_cons_ne_nil {β : Type} (xs ys : List (List β)) (y : List β) :
    glue xs (y :: ys) ≠ [] := by
  induction xs with
  | nil => simp [glue]
  | cons x xs ih => cases xs <;> simp [glue]

theorem weave_ne_nil (fs : List (Formula α)) : weave fs ≠ [] := by
  induction fs with
  | nil => simp [weave]
  | cons f fs ih =>
      obtain ⟨y, ys, hys⟩ := List.exists_cons_of_ne_nil ih
      rw [weave, hys]
      exact glue_cons_ne_nil _ _ _

theorem continuedRunsHold_append (c : Prop) {xs : List (List (Formula α))} (hxs : xs ≠ [])
    (ys : List (List (Formula α))) :
    ContinuedRunsHold value c (xs ++ ys) ↔
      ContinuedRunsHold value c xs ∨ SomeRunHolds value ys := by
  cases xs with
  | nil => exact absurd rfl hxs
  | cons x xs =>
      simp only [List.cons_append, ContinuedRunsHold, SomeRunHolds, List.mem_append, or_and_right,
        exists_or, or_assoc]

variable (value) in
/-- A run is read into the open conjunction and closes no alternative. -/
theorem absorb_run {f : Formula α} (hf : f.FitsAt .run) {p : Pending α} (hp : p.nots = 0) :
    (absorb p f).disj = p.disj ∧
      (Holds value (absorb p f).run ↔ p.ConjHolds value ∧ Holds value f) := by
  have hliteral : ∀ g : Formula α, g.FitsAt .literal → ∀ q : Pending α, q.nots = 0 →
      (absorb q g).disj = q.disj ∧
        (Holds value (absorb q g).run ↔ q.ConjHolds value ∧ Holds value g) := by
    rintro g hg ⟨disj, conj, nots⟩ rfl
    rw [(absorb_fitsAt g).1 hg]
    exact ⟨rfl, holds_joinAnd conj g⟩
  induction f with
  | operand a => exact hliteral (.operand a) (by simp [Formula.FitsAt]) p hp
  | not f _ => exact hliteral (.not f) (by simpa [Formula.FitsAt] using hf) p hp
  | paren f _ => exact hliteral (.paren f) (by simpa [Formula.FitsAt] using hf) p hp
  | or f g _ _ => exact hf.elim
  | and f g ihf _ =>
      obtain ⟨hdisj, hrun⟩ := ihf hf.1
      obtain ⟨hdisj', hrun'⟩ := hliteral g hf.2 (absorb p f).thenAnd rfl
      refine ⟨hdisj'.trans hdisj, ?_⟩
      rw [absorb, hrun', holds_and, ← and_assoc, ← hrun]
      simp [Pending.ConjHolds, Done.thenAnd]

theorem absorb_run_continued {f : Formula α} (hf : f.FitsAt .run) (halt : f.alternatives = [f])
    {p : Pending α} (hp : p.nots = 0) (y : List (Formula α)) (ys : List (List (Formula α))) :
    (absorb p f).DisjHolds value ∨
        ContinuedRunsHold value (Holds value (absorb p f).run) (y :: ys) ↔
      p.DisjHolds value ∨
        ContinuedRunsHold value (p.ConjHolds value)
          (glue (f.alternatives.map ([·])) (y :: ys)) := by
  obtain ⟨hdisj, hrun⟩ := absorb_run value hf hp
  rw [halt, List.map_singleton]
  simp only [Done.DisjHolds, Pending.DisjHolds, hdisj, ContinuedRunsHold, hrun, glue,
    List.singleton_append, runHolds_cons, and_assoc]

/-- What a canonical formula adds in front of the runs `y :: ys` that follow
it in the text. -/
theorem absorb_continued {f : Formula α} (hf : f.Canonical) {p : Pending α} (hp : p.nots = 0)
    (y : List (Formula α)) (ys : List (List (Formula α))) :
    (absorb p f).DisjHolds value ∨
        ContinuedRunsHold value (Holds value (absorb p f).run) (y :: ys) ↔
      p.DisjHolds value ∨
        ContinuedRunsHold value (p.ConjHolds value)
          (glue (f.alternatives.map ([·])) (y :: ys)) := by
  induction f generalizing p y ys with
  | or f g ihf _ =>
      have hne : f.alternatives.map ([·]) ≠ [] := by simpa using f.alternatives_ne_nil
      have hleft := ihf hf.1 hp [] []
      rw [glue_nil_run _ hne] at hleft
      obtain ⟨hdisj, hlast⟩ := absorb_run value hf.2 (p := (absorb p f).thenOr) rfl
      have hclosed : (absorb (absorb p f).thenOr g).DisjHolds value ↔
          (absorb p f).DisjHolds value ∨ Holds value (absorb p f).run := by
        rw [Done.DisjHolds, hdisj, ← holds_done_value]
        simp [Done.thenOr]
      have hopen : Holds value (absorb (absorb p f).thenOr g).run ↔ Holds value g := by
        rw [hlast]
        simp [Done.thenOr, Pending.ConjHolds]
      rw [Formula.alternatives, List.map_append, List.map_singleton, glue_append_singleton,
        continuedRunsHold_append _ hne, absorb, hclosed, ← or_assoc, ← hleft]
      simp [ContinuedRunsHold, glue, hopen]
  | operand a => exact absorb_run_continued (by simp [Formula.FitsAt]) rfl hp y ys
  | not f _ =>
      exact absorb_run_continued (by simpa [Formula.FitsAt, Formula.Canonical] using hf) rfl hp y ys
  | and f g _ _ =>
      exact absorb_run_continued (by simpa [Formula.FitsAt, Formula.Canonical] using hf) rfl hp y ys
  | paren f _ =>
      exact absorb_run_continued (by simpa [Formula.FitsAt, Formula.Canonical] using hf) rfl hp y ys

theorem holds_foldl_absorb {fs : List (Formula α)} (hfs : ∀ f ∈ fs, f.Canonical) (d : Done α) :
    Holds value (fs.foldl (fun d f => absorb d.thenAnd f) d).value ↔
      d.DisjHolds value ∨ ContinuedRunsHold value (Holds value d.run) (weave fs) := by
  induction fs generalizing d with
  | nil => simp [weave, ContinuedRunsHold, holds_done_value]
  | cons f fs ih =>
      obtain ⟨y, ys, hys⟩ := List.exists_cons_of_ne_nil (weave_ne_nil fs)
      have hf : f.Canonical := hfs f (by simp)
      have hconj : d.thenAnd.ConjHolds value ↔ Holds value d.run := by
        simp [Done.thenAnd, Pending.ConjHolds]
      rw [List.foldl_cons, ih (fun g hg => hfs g (by simp [hg])), weave, hys,
        absorb_continued hf (p := d.thenAnd) rfl y ys, ← hconj]
      rfl

theorem absorb_andAll (p : Pending α) (f : Formula α) (fs : List (Formula α)) :
    absorb p (f.andAll fs) = fs.foldl (fun d g => absorb d.thenAnd g) (absorb p f) := by
  induction fs using List.reverseRecOn with
  | nil => rfl
  | append_singleton fs g ih =>
      simp only [Formula.andAll, List.foldl_append, List.foldl_cons, List.foldl_nil] at ih ⊢
      rw [absorb, ih]

/-- Canonical formulas joined by AND without parentheses are read as the OR
of the woven runs. -/
theorem holds_read_chain {f : Formula α} {fs : List (Formula α)} (hf : f.Canonical)
    (hfs : ∀ g ∈ fs, g.Canonical) :
    ∃ r, read (f.andAll fs).print = some r ∧
      (Holds value r ↔ SomeRunHolds value (weave (f :: fs))) := by
  refine ⟨_, read_print_eq _, ?_⟩
  obtain ⟨y, ys, hys⟩ := List.exists_cons_of_ne_nil (weave_ne_nil fs)
  rw [absorb_andAll, holds_foldl_absorb hfs, hys, absorb_continued hf rfl, ← hys]
  have hdisj : ¬(Pending.start : Pending α).DisjHolds value := by
    simp [Pending.start, Pending.DisjHolds]
  have hconj : (Pending.start : Pending α).ConjHolds value := by
    simp [Pending.start, Pending.ConjHolds]
  obtain ⟨z, zs, hzs⟩ := List.exists_cons_of_ne_nil (weave_ne_nil (f :: fs))
  have hweave : glue (f.alternatives.map ([·])) (weave fs) = weave (f :: fs) := rfl
  rw [hweave, hzs]
  simp [hdisj, hconj, ContinuedRunsHold]

/-! ### When the juxtaposition means the conjunction -/

theorem someRunHolds_glue {xs ys : List (List (Formula α))} (hxs : SomeRunHolds value xs)
    (hys : SomeRunHolds value ys) : SomeRunHolds value (glue xs ys) := by
  induction xs with
  | nil => simp at hxs
  | cons x xs ih =>
      cases xs with
      | nil =>
          cases ys with
          | nil => simp at hys
          | cons y ys =>
              rcases (someRunHolds_cons y ys).mp hys with hy | hys
              · have hx : RunHolds value x := by simpa using hxs
                refine (someRunHolds_cons _ _).mpr (Or.inl fun g hg => ?_)
                rcases List.mem_append.mp hg with hg | hg
                · exact hx g hg
                · exact hy g hg
              · exact (someRunHolds_cons _ _).mpr (Or.inr hys)
      | cons x' xs =>
          rcases (someRunHolds_cons x _).mp hxs with hx | hxs
          · exact (someRunHolds_cons _ _).mpr (Or.inl hx)
          · exact (someRunHolds_cons _ _).mpr (Or.inr (ih hxs))

/-- No row is lost: where every operand holds, some run holds. -/
theorem someRunHolds_of_forall {fs : List (Formula α)} (h : ∀ f ∈ fs, Holds value f) :
    SomeRunHolds value (weave fs) := by
  induction fs with
  | nil => simp [weave]
  | cons f fs ih =>
      obtain ⟨g, hg, hholds⟩ := (holds_iff_alternatives f).mp (h f (by simp))
      refine someRunHolds_glue ⟨[g], ?_, by simpa using hholds⟩ (ih fun g hg => h g (by simp [hg]))
      exact List.mem_map.mpr ⟨g, hg, rfl⟩

/-- The exact condition on one row: every run that holds there must imply all
the operands. -/
theorem someRunHolds_iff_forall_iff (fs : List (Formula α)) :
    (SomeRunHolds value (weave fs) ↔ ∀ f ∈ fs, Holds value f) ↔
      ∀ run ∈ weave fs, RunHolds value run → ∀ f ∈ fs, Holds value f := by
  constructor
  · intro h run hrun hholds
    exact h.mp ⟨run, hrun, hholds⟩
  · intro h
    exact ⟨fun ⟨run, hrun, hholds⟩ => h run hrun hholds, someRunHolds_of_forall⟩

/-- Operands without a top-level OR are joined into a single run. -/
theorem weave_of_single {fs : List (Formula α)} (h : ∀ f ∈ fs, f.alternatives = [f]) :
    weave fs = [fs] := by
  induction fs with
  | nil => rfl
  | cons f fs ih =>
      rw [weave, ih fun g hg => h g (by simp [hg]), h f (by simp)]
      rfl

/-- An operand followed by some without a top-level OR: every alternative of
the first but the last stands alone. -/
theorem weave_cons_of_single (f : Formula α) {gs : List (Formula α)}
    (hgs : ∀ g ∈ gs, g.alternatives = [g]) :
    weave (f :: gs) =
      f.alternatives.dropLast.map ([·]) ++
        [f.alternatives.getLast f.alternatives_ne_nil :: gs] := by
  have hglue : weave (f :: gs) = glue (f.alternatives.map ([·])) [gs] := by
    rw [weave, weave_of_single hgs]
  conv_lhs => rw [hglue, ← List.dropLast_append_getLast f.alternatives_ne_nil]
  rw [List.map_append, List.map_singleton, glue_append_singleton]
  rfl

/-- On one row, such a juxtaposition means the conjunction exactly when every
alternative of the first operand but the last brings the other operands
along. -/
theorem someRunHolds_cons_iff (f : Formula α) {gs : List (Formula α)}
    (hgs : ∀ g ∈ gs, g.alternatives = [g]) :
    (SomeRunHolds value (weave (f :: gs)) ↔ Holds value f ∧ ∀ g ∈ gs, Holds value g) ↔
      ∀ a ∈ f.alternatives.dropLast, Holds value a → ∀ g ∈ gs, Holds value g := by
  have hexact := @someRunHolds_iff_forall_iff _ value (f :: gs)
  simp only [List.forall_mem_cons] at hexact
  rw [hexact, weave_cons_of_single f hgs]
  have halternative : ∀ a ∈ f.alternatives, Holds value a → Holds value f := fun a ha hholds =>
    (holds_iff_alternatives f).mpr ⟨a, ha, hholds⟩
  constructor
  · intro h a ha hholds
    exact (h [a] (List.mem_append_left _ (List.mem_map_of_mem ha)) (by simpa using hholds)).2
  · intro h run hrun hholds
    rcases List.mem_append.mp hrun with hrun | hrun
    · obtain ⟨a, ha, rfl⟩ := List.mem_map.mp hrun
      have ha' : Holds value a := by simpa using hholds
      exact ⟨halternative a (List.dropLast_subset _ ha) ha', h a ha ha'⟩
    · -- the last run holds the last alternative and all the other operands
      rw [List.mem_singleton.mp hrun, runHolds_cons] at hholds
      exact ⟨halternative _ (List.getLast_mem _) hholds.1, hholds.2⟩

/-- The operands behind the first add no row. -/
theorem holds_of_someRunHolds_cons (f : Formula α) {gs : List (Formula α)}
    (hgs : ∀ g ∈ gs, g.alternatives = [g]) (h : SomeRunHolds value (weave (f :: gs))) :
    Holds value f := by
  obtain ⟨run, hrun, hholds⟩ := h
  rw [weave_cons_of_single f hgs] at hrun
  rw [holds_iff_alternatives]
  rcases List.mem_append.mp hrun with hrun | hrun
  · obtain ⟨a, ha, rfl⟩ := List.mem_map.mp hrun
    exact ⟨a, List.dropLast_subset _ ha, hholds a (by simp)⟩
  · rw [List.mem_singleton.mp hrun, runHolds_cons] at hholds
    exact ⟨_, List.getLast_mem _, hholds.1⟩

end Holds

end BoolText
