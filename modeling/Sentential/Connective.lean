import Sentential.Text.Layout

namespace Sentential

inductive Connective
  | and
  | or
  | xor
  | implies
  | iff
  deriving DecidableEq, Repr

namespace Connective

def ofSymbol? : Char → Option Connective
  | '&' => some and
  | '|' => some or
  | '^' => some xor
  | '>' => some implies
  | '=' => some iff
  | _ => none

def symbol : Connective → Char
  | and => '&'
  | or => '|'
  | xor => '^'
  | implies => '>'
  | iff => '='

def name : Connective → String
  | and => "And"
  | or => "Or"
  | xor => "Xor"
  | implies => "Implies"
  | iff => "Iff"

def apply : Connective → Bool → Bool → Bool
  | and, p, q => p && q
  | or, p, q => p || q
  | xor, p, q => p != q
  | implies, p, q => !p || q
  | iff, p, q => p == q

def layout (op : Connective) : Text.Layout := .fitted (String.singleton op.symbol)

def format (f : Text.Field) (op : Connective) : String := op.layout.write f

@[simp] theorem format_plain (op : Connective) : op.format .plain = String.singleton op.symbol :=
  Text.Field.pad_plain _

@[simp] theorem ofSymbol?_symbol (op : Connective) : ofSymbol? op.symbol = some op := by
  cases op <;> rfl

theorem ofSymbol?_eq_some_iff {c : Char} {op : Connective} :
    ofSymbol? c = some op ↔ c = op.symbol := by
  constructor
  · intro h
    unfold ofSymbol? at h
    split at h <;> simp_all [symbol] <;> subst h <;> rfl
  · rintro rfl
    exact ofSymbol?_symbol op

end Connective

end Sentential
