import Sentential.Statement

namespace Sentential.Statement

/-- Parentheses around the symbols of a binary statement. -/
def enclose (s : Statement) (symbols : List Char) : List Char :=
  if s.isBinary then '(' :: symbols ++ [')'] else symbols

/-- The canonical text: a blank on either side of a connective, parentheses around binary
operands only. -/
def symbols : Statement → List Char
  | falsum => ['0']
  | verum => ['1']
  | var v => [v.name]
  | not s => '!' :: s.enclose s.symbols
  | binary op l r => l.enclose l.symbols ++ ' ' :: op.symbol :: ' ' :: r.enclose r.symbols

def render (s : Statement) : String := String.ofList s.symbols

/-- The canonical text again, as it is written into a field. Operands, letters, constants and
connectives are parts of a longer text. -/
def layout : Statement → Text.Layout
  | falsum => .word "0"
  | verum => .word "1"
  | var v => .inner v.layout
  | not s => .word "!" ++ operand s s.layout
  | binary op l r =>
    operand l l.layout ++ .fixed " " ++ .inner op.layout ++ .fixed " " ++ operand r r.layout
where
  operand (s : Statement) (l : Text.Layout) : Text.Layout :=
    if s.isBinary then .fixed "(" ++ .inner l ++ .fixed ")" else .inner l

def format (f : Text.Field) (s : Statement) : String := s.layout.write f

end Sentential.Statement
