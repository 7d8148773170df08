import Sentential.Proofs.Coloring

namespace Sentential.Drawing

open Text

variable {d : Drawing} {t : TruthTable} {bar : Char} {plan : Partition} {p : Parsed}

/-- Colors and blanks apart, a cell shows a text. -/
def Shows (d : Drawing) (cell text : String) : Prop :=
  ∃ (before after : Nat) (b : Bool),
    let padded := String.ofList
      (List.replicate before ' ' ++ text.toList ++ List.replicate after ' ')
    cell = if d.colored then color b ++ padded ++ plainColor else padded

theorem shows_cell (d : Drawing) (b : Bool) (width : Nat) :
    d.Shows (d.cell b width) (String.singleton (digit b)) := by
  refine ⟨(width - 1) / 2, width - (width - 1) / 2 - 1, b, ?_⟩
  rw [String.toList_singleton, List.append_assoc]
  rfl

/-- The digits of a row, from a line with colors or without. -/
def digitsIn (line : String) : List Char :=
  let (input, output) := cells (String.ofList (decolor line.toList))
  visible input ++ visible output

/-- Row `j` of a drawing has these digits in its cells. They are read from the text, whatever the
colors, if the glyphs can be told from them. -/
structure ShowsRow (d : Drawing) (t : TruthTable) (j : Nat) (digits : List Char) : Prop where
  text_eq : d.text t = String.join ((d.lines t).map (· ++ "\n"))
  exists_cells : ∃ cells cell,
    (d.lines t)[3 + j]? = some (d.glyphs.vertical ++ "  ".intercalate cells ++ d.glyphs.vertical ++
      cell ++ d.glyphs.vertical) ∧
    List.Forall₂ d.Shows (cells ++ [cell]) (digits.map String.singleton)
  exists_line : ∀ bar, d.glyphs.Legible bar →
    ∃ line, (Text.lines (d.text t))[3 + j]? = some line ∧ digitsIn line = digits

theorem escape_notMem_body (hc : d.colored = false) (hv : '\x1b' ∉ d.glyphs.vertical.toList)
    (value : Nat) (output : Bool) : '\x1b' ∉ (d.body t value output).toList := by
  intro hm
  rw [body_eq hc] at hm
  have hd : '\x1b' ∉ (t.inputs value).map digit :=
    escape_notMem_of_isOrdinary (List.forall_mem_map.2 fun b _ ↦ isOrdinary_digit b)
  rcases mem_row hm with hm | hm | hm
  · exact hv hm
  · exact notMem_spaced (by decide) hd hm
  · exact escape_notMem_of_isOrdinary (isOrdinary_centered output _) hm

theorem decolor_body (hv : '\x1b' ∉ d.glyphs.vertical.toList) (value : Nat) (output : Bool) :
    decolor (d.body t value output).toList = (d.plain.body t value output).toList := by
  cases hc : d.colored with
  | true => exact (paints_body hc hv value output).decolor_eq
  | false =>
    have hp : d.plain = d := by rw [plain, ← hc]
    rw [hp]
    exact (Paints.of_notMem (escape_notMem_body hc hv value output)).decolor_eq

theorem digitsIn_body (hg : d.glyphs.Legible bar) (value : Nat) (output : Bool) :
    digitsIn (d.body t value output) = (t.inputs value).map digit ++ [digit output] := by
  have hv := hg.escape_notMem _ d.glyphs.vertical_mem_pieces
  have hp : d.plain.glyphs.Legible bar := hg
  rw [digitsIn, decolor_body hv, String.ofList_toList, cells_body hp rfl]
  simp only [visible_inputs, visible_centered]

theorem showsRow (ht : (TruthTable.tabulate plan p).value = .ok t) {j value : Nat} {output : Bool}
    (hj : (t.rows d.filter)[j]? = some (value, output)) :
    d.ShowsRow t j ((t.inputs value).map digit ++ [digit output]) where
  text_eq := d.text_eq t
  exists_cells := by
    refine ⟨_, _, getElem?_lines hj, ?_⟩
    rw [List.map_append, List.map_map]
    refine List.rel_append ?_ (.cons (d.shows_cell output _) .nil)
    rw [List.forall₂_map_left_iff, List.forall₂_map_right_iff, List.forall₂_same]
    exact fun b _ ↦ d.shows_cell b 1
  exists_line bar hg := by
    refine ⟨_, ?_, digitsIn_body hg value output⟩
    rw [lines_text ht hg.isLine, getElem?_lines hj]

end Sentential.Drawing
