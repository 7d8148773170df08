import Sentential.Lexeme

namespace Sentential

/-- A character that cannot stand where it stands, or a text that ends too early. -/
inductive LexicalError
  | unexpectedChar (found : Char) (position : Nat) (expected : Expected)
  | unmatchedClose (position : Nat)
  | tooDeep (position : Nat) (limit : Nat)
  | unexpectedEnd (expected : Expected) (openGroups : Nat)
  deriving DecidableEq, Repr

namespace LexicalError

def position? : LexicalError → Option Nat
  | unexpectedChar _ position _ => some position
  | unmatchedClose position => some position
  | tooDeep position _ => some position
  | unexpectedEnd _ _ => none

def message : LexicalError → String
  | unexpectedChar found position expected =>
    s!"unexpected char '{found}' at position {position}; expected {expected.description}"
  | unmatchedClose position =>
    s!"unexpected closing parenthesis at position {position}: no corresponding opening parenthesis"
  | tooDeep position limit =>
    s!"too many nested groups at position {position}; at most {limit} groups may be open"
  | unexpectedEnd expected _ => s!"unexpected end of input; expected {expected.description}"

def layout : LexicalError → Text.Layout
  | unexpectedChar found position expected =>
    .fixed "unexpected char '" ++ .word (String.singleton found) ++ .fixed "' at position " ++
      .word (toString position) ++ .fixed "; expected " ++ .inner expected.layout
  | unmatchedClose position =>
    .fixed "unexpected closing parenthesis at position " ++ .word (toString position) ++
      .fixed ": no corresponding opening parenthesis"
  | tooDeep position limit =>
    .fixed "too many nested groups at position " ++ .word (toString position) ++
      .fixed "; at most " ++ .word (toString limit) ++ .fixed " groups may be open"
  | unexpectedEnd expected _ =>
    .fixed "unexpected end of input; expected " ++ .inner expected.layout

end LexicalError

inductive SyntaxError
  | lexical (e : LexicalError)
  /-- A second operator in one group. -/
  | chainedOperator (operator : Char) (position : Nat)
  | unexpectedLexeme (found : LexemeKind) (position : Nat)
  | unexpectedEnd
  deriving DecidableEq, Repr

namespace SyntaxError

def isLexical : SyntaxError → Bool
  | lexical _ => true
  | _ => false

def position? : SyntaxError → Option Nat
  | lexical e => e.position?
  | chainedOperator _ position => some position
  | unexpectedLexeme _ position => some position
  | unexpectedEnd => none

def message : SyntaxError → String
  | lexical e => e.message
  | chainedOperator operator position =>
    s!"unexpected operator '{operator}' at position {position}" ++
      "; binary statements must be parenthesized"
  | unexpectedLexeme found position => s!"unexpected {found.description} at position {position}"
  | unexpectedEnd => "unexpected end of input"

def layout : SyntaxError → Text.Layout
  | lexical e => e.layout
  | chainedOperator operator position =>
    .fixed "unexpected operator '" ++ .word (String.singleton operator) ++
      .fixed "' at position " ++ .word (toString position) ++
      .fixed "; binary statements must be parenthesized"
  | unexpectedLexeme found position =>
    .fixed "unexpected " ++ .inner found.layout ++ .fixed " at position " ++
      .word (toString position)
  | unexpectedEnd => .fixed "unexpected end of input"

def format (f : Text.Field) (e : SyntaxError) : String := e.layout.write f

end SyntaxError

inductive EnumerationError
  | noVariables
  deriving DecidableEq, Repr

def EnumerationError.message : EnumerationError → String
  | noVariables => "cannot enumerate assignments of a statement without variables"

end Sentential
