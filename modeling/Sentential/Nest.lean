import Sentential.Group
import Sentential.Log

namespace Sentential

/-- The groups that are open while a text is read. -/
structure Nest where
  /-- The innermost group. -/
  group : Group := {}
  /-- The groups around it, inside out. -/
  outer : List Group := []
  deriving DecidableEq, Repr

namespace Nest

def unexpected {α : Type} (x : Lexeme) : Except SyntaxError α :=
  .error (.unexpectedLexeme x.kind x.position)

def fill (n : Nest) (s : Statement) (occurrences : Nat) : Nest :=
  { n with group := n.group.fill s occurrences }

/-- Ends the innermost group, which becomes an operand of the group around it. Where there is none,
nothing that follows can be right. -/
def close (n : Nest) : Except SyntaxError Nest := do
  let s ← n.group.build
  match n.outer with
  | [] => return { n with group := { n.group with phase := .closed } }
  | g :: outer => return ⟨g.fill s n.group.occurrences, outer⟩

def step (n : Nest) (x : Lexeme) : Except SyntaxError Nest :=
  match n.group.phase, x.kind with
  | .operand, .falsum => .ok (n.fill .falsum 0)
  | .operand, .verum => .ok (n.fill .verum 0)
  | .operand, .letter =>
    match Variable.ofChar? x.symbol with
    | some v => .ok (n.fill (.var v) v.bit)
    | none => unexpected x
  | .operand, .negation => .ok { n with group := n.group.negate }
  | .operand, .opening => .ok ⟨{}, n.group :: n.outer⟩
  | .operatorOrClose, .operator =>
    match Connective.ofSymbol? x.symbol with
    | some op => .ok { n with group := n.group.connect op }
    | none => unexpected x
  | .operatorOrClose, .closing | .close, .closing => n.close
  | .close, .operator => .error (.chainedOperator x.symbol x.position)
  | _, _ => unexpected x

/-- The statement of a text that ends here, with the variables read in it. -/
def finish (n : Nest) : Except SyntaxError (Statement × Nat) :=
  match n.outer with
  | [] =>
    if n.group.phase = .closed then .error .unexpectedEnd
    else do
      let s ← n.group.build
      return (s, n.group.occurrences)
  | _ :: _ => .error .unexpectedEnd

/-- What is logged of a lexeme beyond that it was handed out. -/
def notes (n : Nest) (x : Lexeme) : List Entry :=
  if n.group.phase = .operand ∧ x.kind = .opening then [.entering x.position] else []

/-- Takes lexemes until they end or one of them is wrong. -/
def run (n : Nest) : List (Logged (Except LexicalError Lexeme)) →
    Logged (Except SyntaxError (Statement × Nat))
  | [] => return n.finish
  | r :: rs => do
    match ← r with
    | .error e => return .error (.lexical e)
    | .ok x =>
      Logged.write (n.notes x)
      match n.step x with
      | .error e => return .error e
      | .ok n' => n'.run rs

end Nest

end Sentential
