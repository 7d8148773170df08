import Sentential.Error
import Sentential.Signature
import Sentential.Statement.Rendering
import Sentential.Text.Digit

namespace Sentential

/-- An assignment is numbered by its truth values, read as bits: bit `i` of `value` belongs to the
variable at place `i`. -/
structure Assignment where
  signature : Signature
  value : Nat
  deriving DecidableEq, Repr

namespace Assignment

def names (a : Assignment) : List Char := a.signature.names

/-- The truth value of a variable. One that is not in the signature is false. -/
def get (a : Assignment) (v : Variable) : Bool :=
  match a.signature.place? v with
  | some i => a.value.testBit i
  | none => false

def values (a : Assignment) : List Bool := (List.range a.signature.size).map a.value.testBit

/-- The pairs of name and digit between braces, such as the pairs `a:0` and `b:1`. -/
def display (a : Assignment) : String :=
  let pairs := List.zipWith (fun c b ↦ String.ofList [c, ':', Text.digit b]) a.names a.values
  "\x7b" ++ ",".intercalate pairs ++ "\x7d"

def layout (a : Assignment) : Text.Layout :=
  let pairs := List.zipWith (fun c b ↦ Text.Layout.word (String.singleton c) ++ .fixed ":" ++
    .word (String.singleton (Text.digit b))) a.names a.values
  .fixed "\x7b" ++ .intercalate "," pairs ++ .fixed "\x7d"

def format (f : Text.Field) (a : Assignment) : String := a.layout.write f

end Assignment

def Signature.assignment? (s : Signature) (value : Nat) : Option Assignment :=
  if value < s.assignmentCount then some ⟨s, value⟩ else none

def Statement.evaluate (s : Statement) (a : Assignment) : Bool := s.eval a.get

end Sentential
