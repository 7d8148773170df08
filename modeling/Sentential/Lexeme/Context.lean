import Sentential.Error

namespace Sentential

/-- What the lexemes read so far say about the next one. -/
structure Context where
  expected : Expected := .value
  depth : Nat := 0
  deriving DecidableEq, Repr

namespace Context

def maxDepth : Nat := 256

/-- The context behind a lexeme of an admitted kind. -/
def advance (k : Context) (m : Mark) : LexemeKind → Except LexicalError Context
  | .negation => .ok k
  | .falsum | .verum | .letter => .ok { k with expected := .operatorOrClose }
  | .operator => .ok { k with expected := .value }
  | .opening =>
    if k.depth = maxDepth then .error (.tooDeep m.position maxDepth)
    else .ok { k with depth := k.depth + 1 }
  | .closing =>
    if k.depth = 0 then .error (.unmatchedClose m.position)
    else .ok { k with depth := k.depth - 1 }

def read (k : Context) (m : Mark) : Except LexicalError (Lexeme × Context) :=
  match LexemeKind.ofChar? m.symbol with
  | none => .error (.unexpectedChar m.symbol m.position k.expected)
  | some kind =>
    if k.expected.admits kind then (k.advance m kind).map fun k' ↦ (⟨m, kind⟩, k')
    else .error (.unexpectedChar m.symbol m.position k.expected)

/-- What is wrong with a text that ends here. -/
def ending (k : Context) : Option LexicalError :=
  if k.expected = .operatorOrClose ∧ k.depth = 0 then none
  else some (.unexpectedEnd k.expected k.depth)

/-- The lexemes that the marks yield, up to and including the first error. -/
def lexemes (k : Context) : List Mark → List (Except LexicalError Lexeme)
  | [] => (k.ending.map .error).toList
  | m :: ms =>
    match k.read m with
    | .error e => [.error e]
    | .ok (x, k') => .ok x :: k'.lexemes ms

end Context

end Sentential
