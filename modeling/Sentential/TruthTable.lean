import Sentential.Parsed
import Sentential.Partition
import Sentential.RowFilter

namespace Sentential

/-- What the outputs of a statement have in common. -/
inductive Classification
  | tautology
  | contradiction
  | contingent
  deriving DecidableEq, Repr

namespace Classification

def name : Classification → String
  | tautology => "tautology"
  | contradiction => "contradiction"
  | contingent => "contingent"

def layout (c : Classification) : Text.Layout := .fitted c.name

def format (f : Text.Field) (c : Classification) : String := c.layout.write f

end Classification

/-- The outputs of a statement under all assignments, in the order of their numbers. -/
structure TruthTable where
  names : List Char
  /-- The rendered statement, which heads the column of outputs. -/
  statement : String
  outputs : List Bool
  deriving DecidableEq, Repr

namespace TruthTable

def tabulate (plan : Partition) (p : Parsed) : Logged (Except EnumerationError TruthTable) :=
  match p.signature.mapAssignments plan p.statement.evaluate with
  | .error e => return .error e
  | .ok outputs => do
    Logged.write [.evaluated outputs.length p.statement]
    return .ok ⟨p.signature.names, p.statement.render, outputs⟩

def ofParsed (p : Parsed) : Except EnumerationError TruthTable := (tabulate .whole p).value

def read (plan : Partition) (text : String) :
    Logged (Except SyntaxError (Except EnumerationError TruthTable)) := do
  match ← Parsed.read text with
  | .error e => return .error e
  | .ok p => return .ok (← tabulate plan p)

/-- The rows that a filter admits: the number of an assignment and its output. -/
def rows (t : TruthTable) (filter : RowFilter) : List (Nat × Bool) :=
  (t.outputs.zipIdx.map Prod.swap).filter fun row ↦ filter.admits row.2

def classify (t : TruthTable) : Classification :=
  if t.outputs.all (· = true) then .tautology
  else if t.outputs.all (· = false) then .contradiction
  else .contingent

/-- The names over the input columns. The column of the last variable comes first. -/
def columns (t : TruthTable) : List Char := t.names.reverse

/-- The inputs of a row in the order of the columns, so that they read as a binary number. -/
def inputs (t : TruthTable) (value : Nat) : List Bool :=
  (List.range t.names.length).reverse.map value.testBit

end TruthTable

end Sentential
