import Sentential.Statement

namespace Sentential.Grammar

/-- An operand as it is written. A group in parentheses holds one operand, or two with a connective
between them. -/
inductive Term
  | falsum
  | verum
  | letter (v : Variable)
  | negation (t : Term)
  | group (t : Term)
  | pair (l : Term) (op : Connective) (r : Term)
  deriving DecidableEq, Repr

/-- A whole text as it is written, blanks apart. It needs no parentheses around it. -/
inductive Sentence
  | term (t : Term)
  | pair (l : Term) (op : Connective) (r : Term)
  deriving DecidableEq, Repr

namespace Term

def symbols : Term → List Char
  | falsum => ['0']
  | verum => ['1']
  | letter v => [v.name]
  | negation t => '!' :: t.symbols
  | group t => '(' :: t.symbols ++ [')']
  | pair l op r => '(' :: l.symbols ++ op.symbol :: r.symbols ++ [')']

/-- The literal reading: every negation counts and a group means what is in it. -/
def reading : Term → Statement
  | falsum => .falsum
  | verum => .verum
  | letter v => .var v
  | negation t => .not t.reading
  | group t => t.reading
  | pair l op r => .binary op l.reading r.reading

/-- The greatest number of groups that are open at once. -/
def depth : Term → Nat
  | falsum | verum | letter _ => 0
  | negation t => t.depth
  | group t => t.depth + 1
  | pair l _ r => max l.depth r.depth + 1

end Term

namespace Sentence

def symbols : Sentence → List Char
  | term t => t.symbols
  | pair l op r => l.symbols ++ op.symbol :: r.symbols

def reading : Sentence → Statement
  | term t => t.reading
  | pair l op r => .binary op l.reading r.reading

def depth : Sentence → Nat
  | term t => t.depth
  | pair l _ r => max l.depth r.depth

end Sentence

end Sentential.Grammar
