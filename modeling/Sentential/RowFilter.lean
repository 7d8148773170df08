import Sentential.Text.Layout

namespace Sentential

/-- Which rows of a truth table are wanted: those where the statement holds, those where it fails,
or all. -/
inductive RowFilter
  | holding
  | failing
  | any
  deriving DecidableEq, Repr

namespace RowFilter

def admits : RowFilter → Bool → Bool
  | holding, output => output
  | failing, output => !output
  | any, _ => true

def name : RowFilter → String
  | holding => "True"
  | failing => "False"
  | any => "Any"

def words : RowFilter → List String
  | holding => ["true", "True", "t", "T", "1"]
  | failing => ["false", "False", "f", "F", "0"]
  | any => ["any", "Any", "a", "A", "*"]

def ofWord? (word : String) : Option RowFilter :=
  [holding, failing, any].find? fun f ↦ f.words.contains word

/-- The complaint about a word that means no filter. -/
def complaint (word : String) : String := s!"cannot parse {word} as output filter"

def layout (filter : RowFilter) : Text.Layout := .fitted filter.name

def format (f : Text.Field) (filter : RowFilter) : String := filter.layout.write f

end RowFilter

end Sentential
