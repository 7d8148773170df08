import Mathlib.Logic.Function.Iterate
import Sentential.Error
import Sentential.Grammar
import Sentential.Proofs.Sign
import Sentential.Proofs.Visible

namespace Sentential.Grammar

open Function

/-- What stands in a group before the operand that comes next: an operand with its connective,
where the group has got so far, and negations. -/
structure Pending where
  before : Option (Term × Connective) := none
  negations : Nat := 0
  deriving DecidableEq, Repr

/-- A group, or the whole text, as far as it has been read. -/
inductive Draft
  | pending (p : Pending)
  | complete (t : Sentence)
  deriving DecidableEq, Repr

/-- A text as far as it has been read: the draft of the innermost group that is open and what the
groups around it hold, inside out. -/
structure Sketch where
  draft : Draft := .pending {}
  outer : List Pending := []
  deriving DecidableEq, Repr

def Sentence.enclose : Sentence → Term
  | term t => .group t
  | pair l op r => .pair l op r

namespace Pending

def negate (p : Pending) : Pending := { p with negations := p.negations + 1 }

def fill (p : Pending) (t : Term) : Sentence :=
  match p.before with
  | none => .term (Term.negation^[p.negations] t)
  | some (l, op) => .pair l op (Term.negation^[p.negations] t)

def symbols (p : Pending) : List Char :=
  match p.before with
  | none => List.replicate p.negations '!'
  | some (l, op) => l.symbols ++ op.symbol :: List.replicate p.negations '!'

end Pending

theorem Term.symbols_negations (n : Nat) (t : Term) :
    (negation^[n] t).symbols = List.replicate n '!' ++ t.symbols := by
  induction n with
  | zero => rfl
  | succ n ih => rw [iterate_succ_apply', symbols, ih]; rfl

theorem Pending.symbols_fill (p : Pending) (t : Term) :
    (p.fill t).symbols = p.symbols ++ t.symbols := by
  obtain ⟨before, n⟩ := p
  cases before with
  | none => exact t.symbols_negations n
  | some b => simp [fill, symbols, Sentence.symbols, Term.symbols_negations]

theorem Pending.symbols_negate (p : Pending) : p.negate.symbols = p.symbols ++ ['!'] := by
  obtain ⟨before, n⟩ := p
  cases before <;> simp [negate, symbols, List.replicate_succ']

theorem Sentence.symbols_enclose (t : Sentence) :
    t.enclose.symbols = '(' :: t.symbols ++ [')'] := by
  cases t <;> simp [enclose, symbols, Term.symbols]

def Draft.symbols : Draft → List Char
  | pending p => p.symbols
  | complete t => t.symbols

namespace Sketch

def expected (s : Sketch) : Expected :=
  match s.draft with
  | .pending _ => .value
  | .complete _ => .operatorOrClose

def fill (p : Pending) (t : Term) (outer : List Pending) : Sketch := ⟨.complete (p.fill t), outer⟩

/-- Reads one more character. At most `limit` groups may be open. -/
def step (limit : Nat) (s : Sketch) (m : Mark) : Except SyntaxError Sketch :=
  match s.draft, Sign.ofChar? m.symbol with
  | .pending p, some .falsum => .ok (fill p .falsum s.outer)
  | .pending p, some .verum => .ok (fill p .verum s.outer)
  | .pending p, some (.letter v) => .ok (fill p (.letter v) s.outer)
  | .pending p, some .negation => .ok ⟨.pending p.negate, s.outer⟩
  | .pending p, some .opening =>
    if s.outer.length = limit then .error (.lexical (.tooDeep m.position limit))
    else .ok ⟨.pending {}, p :: s.outer⟩
  | .complete t, some .closing =>
    match s.outer with
    | [] => .error (.lexical (.unmatchedClose m.position))
    | p :: outer => .ok (fill p t.enclose outer)
  | .complete (.term t), some (.operator op) => .ok ⟨.pending ⟨some (t, op), 0⟩, s.outer⟩
  | .complete (.pair _ _ _), some (.operator _) =>
    .error (.chainedOperator m.symbol m.position)
  | _, _ => .error (.lexical (.unexpectedChar m.symbol m.position s.expected))

def run (limit : Nat) (s : Sketch) : List Mark → Except SyntaxError Sketch
  | [] => .ok s
  | m :: ms => (s.step limit m).bind fun s' ↦ s'.run limit ms

def finish (s : Sketch) : Except SyntaxError Sentence :=
  match s.draft, s.outer with
  | .complete t, [] => .ok t
  | _, _ => .error (.lexical (.unexpectedEnd s.expected s.outer.length))

def symbols (s : Sketch) : List Char := opened s.outer ++ s.draft.symbols
where
  opened : List Pending → List Char
    | [] => []
    | p :: outer => opened outer ++ p.symbols ++ ['(']

/-- What a character can do to a sketch. -/
inductive Step (limit : Nat) : Sketch → Sign → Sketch → Prop
  | falsum (p : Pending) (outer : List Pending) :
      Step limit ⟨.pending p, outer⟩ .falsum (fill p .falsum outer)
  | verum (p : Pending) (outer : List Pending) :
      Step limit ⟨.pending p, outer⟩ .verum (fill p .verum outer)
  | letter (p : Pending) (v : Variable) (outer : List Pending) :
      Step limit ⟨.pending p, outer⟩ (.letter v) (fill p (.letter v) outer)
  | negation (p : Pending) (outer : List Pending) :
      Step limit ⟨.pending p, outer⟩ .negation ⟨.pending p.negate, outer⟩
  | opening (p : Pending) (outer : List Pending) (h : outer.length ≠ limit) :
      Step limit ⟨.pending p, outer⟩ .opening ⟨.pending {}, p :: outer⟩
  | closing (t : Sentence) (p : Pending) (outer : List Pending) :
      Step limit ⟨.complete t, p :: outer⟩ .closing (fill p t.enclose outer)
  | operator (t : Term) (op : Connective) (outer : List Pending) :
      Step limit ⟨.complete (.term t), outer⟩ (.operator op) ⟨.pending ⟨some (t, op), 0⟩, outer⟩

variable {limit : Nat} {s s' : Sketch} {m : Mark}

theorem step_of {x : Sign} (hm : m.symbol = x.symbol) (h : Step limit s x s') :
    s.step limit m = .ok s' := by
  rw [step, hm, Sign.ofChar?_symbol]
  cases h with
  | opening p outer h => exact if_neg h
  | _ => rfl

theorem exists_step (h : s.step limit m = .ok s') :
    ∃ x : Sign, m.symbol = x.symbol ∧ Step limit s x s' := by
  obtain ⟨draft, outer⟩ := s
  rw [step] at h
  cases hx : Sign.ofChar? m.symbol with
  | none => cases draft <;> simp [hx] at h
  | some x =>
    refine ⟨x, (Sign.symbol_of_ofChar? hx).symm, ?_⟩
    rw [hx] at h
    cases draft with
    | pending p =>
      cases x with
      | falsum => cases h; exact .falsum p outer
      | verum => cases h; exact .verum p outer
      | letter v => cases h; exact .letter p v outer
      | negation => cases h; exact .negation p outer
      | opening =>
        by_cases hd : outer.length = limit
        · simp [hd] at h
        · simp only [hd, if_false, Except.ok.injEq] at h
          exact h ▸ .opening p outer hd
      | operator op | closing => cases h
    | complete t =>
      cases x with
      | operator op =>
        cases t with
        | term t => cases h; exact .operator t op outer
        | pair l op' r => cases h
      | closing =>
        cases outer with
        | nil => cases h
        | cons p outer => cases h; exact .closing t p outer
      | _ => cases h

theorem exists_step_of_run {ms : List Mark} (h : s.run limit (m :: ms) = .ok s') :
    ∃ (x : Sign) (s₁ : Sketch), m.symbol = x.symbol ∧ Step limit s x s₁ ∧
      s₁.run limit ms = .ok s' := by
  rw [run] at h
  cases hs : s.step limit m with
  | error e => rw [hs] at h; cases h
  | ok s₁ =>
    rw [hs] at h
    obtain ⟨x, hm, hx⟩ := exists_step hs
    exact ⟨x, s₁, hm, hx, h⟩

theorem run_append (xs ys : List Mark) :
    s.run limit (xs ++ ys) = (s.run limit xs).bind fun s' ↦ s'.run limit ys := by
  induction xs generalizing s with
  | nil => rfl
  | cons x xs ih =>
    rw [List.cons_append, run, run]
    cases s.step limit x with
    | error e => rfl
    | ok s' => exact ih

theorem symbols_fill (p : Pending) (t : Term) (outer : List Pending) :
    (fill p t outer).symbols = symbols.opened outer ++ p.symbols ++ t.symbols := by
  rw [symbols, fill, Draft.symbols, Pending.symbols_fill, List.append_assoc]

theorem Step.symbols_eq {x : Sign} (h : Step limit s x s') :
    s'.symbols = s.symbols ++ [x.symbol] := by
  cases h with
  | falsum p outer | verum p outer | letter p v outer => exact symbols_fill ..
  | negation p outer =>
    simp [symbols, Draft.symbols, Pending.symbols_negate, Sign.symbol]
  | opening p outer h =>
    simp [symbols, symbols.opened, Draft.symbols, Pending.symbols, Sign.symbol]
  | closing t p outer =>
    rw [symbols_fill, Sentence.symbols_enclose]
    simp [symbols, symbols.opened, Draft.symbols, Sign.symbol]
  | operator t op outer =>
    simp [symbols, Draft.symbols, Pending.symbols, Sentence.symbols, Sign.symbol]

theorem run_symbols {ms : List Mark} (h : s.run limit ms = .ok s') :
    s'.symbols = s.symbols ++ ms.map Mark.symbol := by
  induction ms generalizing s with
  | nil =>
    cases h
    exact (List.append_nil _).symm
  | cons m ms ih =>
    obtain ⟨x, s₁, hm, hx, h⟩ := exists_step_of_run h
    rw [ih h, hx.symbols_eq, List.map_cons, hm, List.append_assoc, List.singleton_append]

theorem Step.length_outer {x : Sign} (h : Step limit s x s') :
    s'.outer.length = Text.level s.outer.length [x.symbol] := by
  rw [Text.level, Text.level, Text.level, Text.level]
  simp only [Sign.symbol_eq_opening, Sign.symbol_eq_closing]
  cases h <;> simp [fill]

theorem Step.length_outer_le {x : Sign} (h : Step limit s x s') (hs : s.outer.length ≤ limit) :
    s'.outer.length ≤ limit := by
  cases h with
  | opening p outer h => exact Nat.lt_of_le_of_ne hs h
  | closing t p outer => exact Nat.le_of_succ_le hs
  | _ => exact hs

theorem run_level {ms : List Mark} (h : s.run limit ms = .ok s') (hs : s.outer.length ≤ limit) :
    Text.level s.outer.length (ms.map Mark.symbol) = s'.outer.length ∧
      Text.nesting s.outer.length (ms.map Mark.symbol) ≤ limit := by
  induction ms generalizing s with
  | nil =>
    cases h
    exact ⟨rfl, hs⟩
  | cons m ms ih =>
    obtain ⟨x, s₁, hm, hx, h⟩ := exists_step_of_run h
    obtain ⟨hl, hn⟩ := ih h (hx.length_outer_le hs)
    rw [hx.length_outer, ← hm] at hl hn
    rw [List.map_cons, Text.nesting_cons]
    refine ⟨?_, Nat.max_le.2 ⟨hs, hn⟩⟩
    rw [← hl]
    exact Text.level_append s.outer.length [m.symbol] (ms.map Mark.symbol)

end Sketch

/-- The derivation of a text with at most `limit` groups open at once. -/
def derive (limit : Nat) (ms : List Mark) : Except SyntaxError Sentence :=
  (Sketch.run limit {} ms).bind Sketch.finish

end Sentential.Grammar
