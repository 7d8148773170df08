import Sentential.Assignment
import Sentential.Lexeme.Stream
import Sentential.Nest

namespace Sentential

/-- A statement read from a text, with the variables that were met in the text. -/
structure Parsed where
  statement : Statement
  signature : Signature
  deriving DecidableEq, Repr

namespace Parsed

def read (text : String) : Logged (Except SyntaxError Parsed) := do
  Logged.write [.parsing text]
  match ← Nest.run {} (LexemeStream.ofText text).results with
  | .error e => return .error e
  | .ok (statement, occurrences) =>
    let signature := Signature.ofBits occurrences
    Logged.write [.parsed statement signature.size]
    return .ok ⟨statement, signature⟩

def ofText (text : String) : Except SyntaxError Parsed := (read text).value

/-- The truth value under the assignment with a given number, if there are that many. -/
def evaluate (p : Parsed) (value : Nat) : Option Bool :=
  (p.signature.assignment? value).map p.statement.evaluate

def format (f : Text.Field) (p : Parsed) : String := p.statement.format f

end Parsed

end Sentential
