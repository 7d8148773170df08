import Sentential.Connective
import Sentential.Variable

namespace Sentential.Grammar

mutual

/-- An operand as it is written where connectives can be chained. -/
inductive Link
  | falsum
  | verum
  | letter (v : Variable)
  | negation (l : Link)
  | group (t : Chain)

/-- Operands with a connective between each of them and the next, without parentheses. -/
inductive Chain
  | last (l : Link)
  | more (l : Link) (op : Connective) (t : Chain)

end

mutual

def Link.symbols : Link → List Char
  | .falsum => ['0']
  | .verum => ['1']
  | .letter v => [v.name]
  | .negation l => '!' :: l.symbols
  | .group t => '(' :: t.symbols ++ [')']

def Chain.symbols : Chain → List Char
  | .last l => l.symbols
  | .more l op t => l.symbols ++ op.symbol :: t.symbols

end

end Sentential.Grammar
