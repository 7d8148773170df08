import Sentential.Connective
import Sentential.Text.Blank
import Sentential.Variable

namespace Sentential

/-- A character at its place in a text, counted in characters from zero. -/
structure Mark where
  symbol : Char
  position : Nat
  deriving DecidableEq, Repr

/-- The characters of a text that are not blank. Blank ones count for the places all the same; the
first character stands at `position`. -/
def marks (position : Nat) : List Char → List Mark
  | [] => []
  | c :: text =>
    if Text.isBlank c then marks (position + 1) text
    else ⟨c, position⟩ :: marks (position + 1) text

inductive LexemeKind
  | falsum
  | verum
  | negation
  | operator
  | opening
  | closing
  | letter
  deriving DecidableEq, Repr

namespace LexemeKind

def ofChar? (c : Char) : Option LexemeKind :=
  if c = '0' then some falsum
  else if c = '1' then some verum
  else if c = '!' then some negation
  else if c = '(' then some opening
  else if c = ')' then some closing
  else if (Connective.ofSymbol? c).isSome then some operator
  else if (Variable.ofChar? c).isSome then some letter
  else none

def name : LexemeKind → String
  | falsum => "False"
  | verum => "True"
  | negation => "Negate"
  | operator => "Operator"
  | opening => "OpenGroup"
  | closing => "CloseGroup"
  | letter => "Variable"

def description : LexemeKind → String
  | falsum => "false constant"
  | verum => "true constant"
  | negation => "negation"
  | operator => "operator"
  | opening => "opening parenthesis"
  | closing => "closing parenthesis"
  | letter => "variable"

def layout (k : LexemeKind) : Text.Layout := .fitted k.description

def format (f : Text.Field) (k : LexemeKind) : String := k.layout.write f

end LexemeKind

/-- Every character that is not blank is a lexeme of its own. -/
structure Lexeme extends Mark where
  kind : LexemeKind
  deriving DecidableEq, Repr

/-- What may come next: the start of an operand, or what follows one. -/
inductive Expected
  | value
  | operatorOrClose
  deriving DecidableEq, Repr

namespace Expected

def admits : Expected → LexemeKind → Bool
  | value, .falsum | value, .verum | value, .negation | value, .opening | value, .letter => true
  | operatorOrClose, .operator | operatorOrClose, .closing => true
  | _, _ => false

def description : Expected → String
  | value => "'!', '(', '0', '1', or a statement"
  | operatorOrClose => "')', '&', '|', '^', '>', or '='"

def layout : Expected → Text.Layout
  | value =>
    .fixed "'" ++ .intercalate "', '" (["!", "(", "0", "1"].map .word) ++
      .fixed "', or a statement"
  | operatorOrClose =>
    .fixed "'" ++ .intercalate "', '" ([")", "&", "|", "^", ">"].map .word) ++ .fixed "', or '" ++
      .word "=" ++ .fixed "'"

def format (f : Text.Field) (e : Expected) : String := e.layout.write f

end Expected

end Sentential
