import Sentential.Proofs.Csv

namespace Sentential

open Text

namespace TruthTable

theorem length_columns (t : TruthTable) : t.columns.length = t.names.length := List.length_reverse

theorem length_inputs (t : TruthTable) (value : Nat) :
    (t.inputs value).length = t.names.length := by
  simp [inputs]

end TruthTable

namespace Drawing

variable {d : Drawing} {t : TruthTable}

theorem length_spaced (cs : List Char) :
    (spaced (cs.map String.singleton)).length = cs.length + 2 * (cs.length - 1) := by
  induction cs with
  | nil => rfl
  | cons c cs ih =>
    cases cs with
    | nil => simp [spaced]
    | cons c' cs =>
      rw [List.map_cons] at ih
      rw [← String.length_toList, List.map_cons, List.map_cons, toList_spaced_cons_cons]
      simp only [String.toList_singleton, List.length_append, List.length_cons, List.length_nil,
        String.length_toList, ih]
      omega

theorem getElem?_spaced (cs : List Char) (i : Nat) :
    (spaced (cs.map String.singleton)).toList[3 * i]? = cs[i]? := by
  induction cs generalizing i with
  | nil => rfl
  | cons c cs ih =>
    cases cs with
    | nil => cases i <;> simp [spaced]
    | cons c' cs =>
      rw [List.map_cons, List.map_cons, toList_spaced_cons_cons]
      cases i with
      | zero => simp
      | succ i =>
        rw [List.getElem?_cons_succ, ← ih i]
        simp [Nat.mul_succ]

theorem getElem?_row {input output : String} {i : Nat} (h : i < input.toList.length) :
    (d.row input output).toList[d.glyphs.vertical.toList.length + i]? = input.toList[i]? := by
  rw [toList_row, List.getElem?_append_right (Nat.le_add_right _ _), Nat.add_sub_cancel_left,
    List.getElem?_append_left h]

/-- The offset of an input cell on a line without colors. -/
def column (d : Drawing) (i : Nat) : Nat := d.glyphs.vertical.toList.length + 3 * i

theorem getElem?_row_column {cs : List Char} {output : String} {i : Nat} {c : Char}
    (h : cs[i]? = some c) :
    (d.row (spaced (cs.map String.singleton)) output).toList[d.column i]? = some c := by
  have hi : 3 * i < (spaced (cs.map String.singleton)).toList.length := by
    have hl := (List.getElem?_eq_some_iff.1 h).1
    rw [String.length_toList, length_spaced]
    omega
  rw [column, getElem?_row hi, getElem?_spaced, h]

end Drawing

end Sentential
