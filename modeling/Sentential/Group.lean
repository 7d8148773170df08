import Sentential.Error
import Sentential.Statement

namespace Sentential

/-- An operand of a group. Negations in front of it are kept by their parity. -/
structure Operand where
  inner : Option Statement := none
  negated : Bool := false
  deriving DecidableEq, Repr

namespace Operand

def negate (o : Operand) : Operand := { o with negated := !o.negated }

def fill (o : Operand) (s : Statement) : Operand := { o with inner := some s }

/-- A negated operand that is a negation itself loses both. -/
def build (o : Operand) : Except SyntaxError Statement :=
  match o.inner with
  | none => .error .unexpectedEnd
  | some s => .ok (if o.negated then s.negate else s)

end Operand

/-- What an open group waits for. -/
inductive Phase
  | operand
  | operatorOrClose
  | close
  /-- Nothing: a whole text that a parenthesis has closed. -/
  | closed
  deriving DecidableEq, Repr

/-- A group that is still open, or the whole text, which needs no parentheses. -/
structure Group where
  phase : Phase := .operand
  left : Operand := {}
  right : Operand := {}
  operator : Option Connective := none
  /-- The variables read so far. -/
  occurrences : Nat := 0
  deriving DecidableEq, Repr

namespace Group

/-- Lets the operand that is being read change: the left one until there is an operator. -/
def modify (g : Group) (f : Operand → Operand) : Group :=
  match g.operator with
  | none => { g with left := f g.left }
  | some _ => { g with right := f g.right }

def negate (g : Group) : Group := g.modify Operand.negate

/-- The operand that is being read turns out to be `s`, up to negations. -/
def fill (g : Group) (s : Statement) (occurrences : Nat) : Group :=
  { g.modify (·.fill s) with
    phase := if g.operator.isNone then .operatorOrClose else .close
    occurrences := g.occurrences ||| occurrences }

def connect (g : Group) (op : Connective) : Group :=
  { g with operator := some op, phase := .operand }

/-- The statement of a complete group. A group of one operand is that operand. -/
def build (g : Group) : Except SyntaxError Statement :=
  if g.phase = .operand then .error .unexpectedEnd
  else
    match g.operator with
    | none => g.left.build
    | some op => do
      let l ← g.left.build
      let r ← g.right.build
      return .binary op l r

end Group

end Sentential
