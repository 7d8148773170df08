import Sentential.Text.Csv
import Sentential.TruthTable

namespace Sentential.TruthTable

/-- The records of a table: the header, then a row of digits for each row that the filter admits. -/
def records (t : TruthTable) (filter : RowFilter) : List (List String) :=
  (t.columns.map String.singleton ++ [t.statement]) ::
    (t.rows filter).map fun (value, output) ↦
      (t.inputs value ++ [output]).map fun b ↦ String.singleton (Text.digit b)

def csv (t : TruthTable) (w : Text.Csv.Writer) (filter : RowFilter) : String :=
  String.join ((t.records filter).map fun fields ↦ w.record fields ++ "\n")

end Sentential.TruthTable
