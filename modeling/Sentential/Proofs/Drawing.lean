import Sentential.Proofs.Rows
import Sentential.Proofs.Visible
import Sentential.TruthTable.Drawing

namespace Sentential

open Text

namespace Glyphs

def pieces (g : Glyphs) : List String :=
  [g.horizontal, g.vertical, g.cross, g.top, g.bottom, g.left, g.right, g.topLeft, g.topRight,
    g.bottomLeft, g.bottomRight]

theorem vertical_mem_pieces (g : Glyphs) : g.vertical ∈ g.pieces := by
  simp [pieces]

/-- The bar is one character, other than those it stands between. No piece breaks a line or begins
a code for the terminal. -/
structure Legible (g : Glyphs) (bar : Char) : Prop where
  vertical_eq : g.vertical = String.singleton bar
  ne_blank : bar ≠ ' '
  ne_digit : ∀ b, bar ≠ digit b
  not_letter : Variable.ofChar? bar = none
  isLine : ∀ piece ∈ g.pieces, IsLine piece.toList
  escape_notMem : ∀ piece ∈ g.pieces, '\x1b' ∉ piece.toList

theorem legible_pretty : Legible pretty '│' :=
  ⟨rfl, by decide, by decide, rfl, by decide, by decide⟩

theorem legible_ascii : Legible ascii '|' := ⟨rfl, by decide, by decide, rfl, by decide, by decide⟩

end Glyphs

namespace Drawing

variable {d : Drawing} {t : TruthTable} {bar : Char}

theorem toList_spaced_cons_cons (cell cell' : String) (cells : List String) :
    (spaced (cell :: cell' :: cells)).toList =
      cell.toList ++ ' ' :: ' ' :: (spaced (cell' :: cells)).toList := by
  simp [spaced]

theorem mem_spaced {cells : List String} {c : Char} (h : c ∈ (spaced cells).toList) :
    c = ' ' ∨ ∃ cell ∈ cells, c ∈ cell.toList := by
  apply (mem_intercalate h).imp_left
  intro hb
  simpa using hb

theorem notMem_spaced {cs : List Char} {c : Char} (hb : c ≠ ' ') (h : c ∉ cs) :
    c ∉ (spaced (cs.map String.singleton)).toList := by
  intro hc
  rcases mem_spaced hc with hc | ⟨cell, hcell, hc⟩
  · exact hb hc
  · obtain ⟨x, hx, rfl⟩ := List.mem_map.1 hcell
    rw [String.toList_singleton, List.mem_singleton] at hc
    exact h (hc ▸ hx)

theorem visible_spaced {cs : List Char} (h : ∀ c ∈ cs, isBlank c = false) :
    visible (spaced (cs.map String.singleton)).toList = cs := by
  induction cs with
  | nil => rfl
  | cons c cs ih =>
    obtain ⟨hc, hs⟩ := List.forall_mem_cons.1 h
    cases cs with
    | nil => simp [spaced, visible, hc]
    | cons c' cs =>
      have hb : isBlank ' ' = true := rfl
      have ht := ih hs
      rw [List.map_cons, visible] at ht
      rw [List.map_cons, List.map_cons, toList_spaced_cons_cons, visible, List.filter_append]
      simp [hc, hb, ht]

/-- The two cells of a line. Its first character is the bar. The next bar ends the first cell, and
the end of the line the second one. -/
def cells (line : String) : List Char × List Char :=
  match line.toList with
  | [] => ([], [])
  | bar :: rest => (rest.takeWhile (· ≠ bar), ((rest.dropWhile (· ≠ bar)).drop 1).dropLast)

theorem toList_row (d : Drawing) (input output : String) :
    (d.row input output).toList = d.glyphs.vertical.toList ++ (input.toList ++
      (d.glyphs.vertical.toList ++ (output.toList ++ d.glyphs.vertical.toList))) := by
  simp [row]

theorem cells_row (hb : d.glyphs.vertical = String.singleton bar) {input output : String}
    (hi : bar ∉ input.toList) : cells (d.row input output) = (input.toList, output.toList) := by
  have hr : (d.row input output).toList =
      bar :: (input.toList ++ bar :: (output.toList ++ [bar])) := by
    simp [toList_row, hb]
  have hp : ∀ c ∈ input.toList, decide (c ≠ bar) = true := by
    intro c hc
    apply decide_eq_true
    rintro rfl
    exact hi hc
  rw [cells, hr]
  dsimp only
  rw [List.takeWhile_append_of_pos hp, List.dropWhile_append_of_pos hp]
  simp

/-- The number of an assignment and the output under it, from a line with digits. -/
def readRow (line : String) : Nat × Bool :=
  let (input, output) := cells line
  (Nat.ofDigitChars 2 (visible input) 0, visible output = [digit true])

/-- Reads a drawn table. -/
def read (text : String) : TruthTable.Excerpt :=
  let ls := Text.lines text
  let (names, statement) := cells (ls.getD 1 "")
  ⟨(visible names).reverse, String.ofList statement, ((ls.drop 3).dropLast).map readRow⟩

theorem lines_eq (d : Drawing) (t : TruthTable) :
    d.lines t = d.border t d.glyphs.topLeft d.glyphs.top d.glyphs.topRight :: d.header t ::
      d.border t d.glyphs.left d.glyphs.cross d.glyphs.right ::
      ((t.rows d.filter).map (fun row ↦ d.body t row.1 row.2) ++
        [d.border t d.glyphs.bottomLeft d.glyphs.bottom d.glyphs.bottomRight]) := rfl

theorem length_lines (d : Drawing) (t : TruthTable) :
    (d.lines t).length = 4 + (t.rows d.filter).length := by
  rw [lines_eq]
  simp only [List.length_cons, List.length_append, List.length_map, List.length_nil]
  omega

theorem getElem?_lines {i : Nat} {row : Nat × Bool} (h : (t.rows d.filter)[i]? = some row) :
    (d.lines t)[3 + i]? = some (d.body t row.1 row.2) := by
  have hi : i < ((t.rows d.filter).map fun row ↦ d.body t row.1 row.2).length := by
    rw [List.length_map]
    exact (List.getElem?_eq_some_iff.1 h).1
  rw [lines_eq, Nat.add_comm 3 i, List.getElem?_cons_succ, List.getElem?_cons_succ,
    List.getElem?_cons_succ, List.getElem?_append_left hi, List.getElem?_map, h]
  rfl

theorem toList_centered (b : Bool) (width : Nat) :
    (centered b width).toList = List.replicate ((width - 1) / 2) ' ' ++
      digit b :: List.replicate (width - (width - 1) / 2 - 1) ' ' :=
  String.toList_ofList

theorem visible_centered (b : Bool) (width : Nat) :
    visible (centered b width).toList = [digit b] := by
  have hb : isBlank ' ' = true := rfl
  have hd : isBlank (digit b) = false := by cases b <;> rfl
  rw [toList_centered, visible, List.filter_append, List.filter_cons, hd]
  simp [hb]

theorem isOrdinary_centered (b : Bool) (width : Nat) :
    ∀ c ∈ (centered b width).toList, isOrdinary c = true := by
  have hr (n : Nat) : ∀ c ∈ List.replicate n ' ', isOrdinary c = true := by
    intro c hc
    rw [List.eq_of_mem_replicate hc]
    rfl
  rw [toList_centered]
  exact List.forall_mem_append.2 ⟨hr _, List.forall_mem_cons.2 ⟨isOrdinary_digit b, hr _⟩⟩

theorem isLine_cell (d : Drawing) (b : Bool) (width : Nat) : IsLine (d.cell b width).toList := by
  have hc := isLine_of_isOrdinary (isOrdinary_centered b width)
  have hb : IsLine (color b).toList := by cases b <;> decide
  have hp : IsLine plainColor.toList := by decide
  unfold cell
  split
  · rw [String.toList_append, String.toList_append]
    exact (hb.append hc).append hp
  · exact hc

theorem mem_row {input output : String} {c : Char} (h : c ∈ (d.row input output).toList) :
    c ∈ d.glyphs.vertical.toList ∨ c ∈ input.toList ∨ c ∈ output.toList := by
  simp only [toList_row, List.mem_append] at h
  tauto

theorem isLine_row (hv : IsLine d.glyphs.vertical.toList) {input output : String}
    (hi : IsLine input.toList) (ho : IsLine output.toList) :
    IsLine (d.row input output).toList := by
  intro c hc
  rcases mem_row hc with hc | hc | hc
  · exact hv c hc
  · exact hi c hc
  · exact ho c hc

theorem mem_border {left middle right : String} {c : Char}
    (h : c ∈ (d.border t left middle right).toList) :
    ∃ piece ∈ [d.glyphs.horizontal, left, middle, right], c ∈ piece.toList := by
  have hn {n : Nat} (h : c ∈ (String.join (List.replicate n d.glyphs.horizontal)).toList) :
      c ∈ d.glyphs.horizontal.toList := by
    rw [String.toList_join] at h
    obtain ⟨piece, hp, hc⟩ := List.mem_flatMap.1 h
    rwa [List.eq_of_mem_replicate hp] at hc
  simp only [border, String.toList_append, List.mem_append] at h
  rcases h with (((h | h) | h) | h) | h
  · exact ⟨left, by simp, h⟩
  · exact ⟨d.glyphs.horizontal, by simp, hn h⟩
  · exact ⟨middle, by simp, h⟩
  · exact ⟨d.glyphs.horizontal, by simp, hn h⟩
  · exact ⟨right, by simp, h⟩

variable {plan : Partition} {p : Parsed}

theorem isLine_spaced {cells : List String} (h : ∀ cell ∈ cells, IsLine cell.toList) :
    IsLine (spaced cells).toList :=
  isLine_intercalate (by decide) h

theorem mem_header (ht : (TruthTable.tabulate plan p).value = .ok t) {c : Char}
    (h : c ∈ (d.header t).toList) : c ∈ d.glyphs.vertical.toList ∨ isOrdinary c = true := by
  apply (mem_row h).imp_right
  rintro (h | h)
  · rcases mem_spaced h with rfl | ⟨cell, hcell, h⟩
    · rfl
    · obtain ⟨x, hx, rfl⟩ := List.mem_map.1 hcell
      obtain ⟨v, rfl⟩ := TruthTable.exists_name_of_mem_columns ht hx
      rw [String.toList_singleton, List.mem_singleton] at h
      exact h ▸ isOrdinary_name v
  · exact TruthTable.isOrdinary_statement ht c h

theorem isLine_body (hv : IsLine d.glyphs.vertical.toList) (value : Nat) (output : Bool) :
    IsLine (d.body t value output).toList := by
  refine isLine_row hv (isLine_spaced ?_) (isLine_cell d output _)
  intro cell hcell
  obtain ⟨b, -, rfl⟩ := List.mem_map.1 hcell
  exact isLine_cell d b 1

theorem isLine_of_mem_lines (ht : (TruthTable.tabulate plan p).value = .ok t)
    (hp : ∀ piece ∈ d.glyphs.pieces, IsLine piece.toList) : ∀ l ∈ d.lines t, IsLine l.toList := by
  have hv : IsLine d.glyphs.vertical.toList := hp _ d.glyphs.vertical_mem_pieces
  have hborder {left middle right : String}
      (h : ∀ piece ∈ [d.glyphs.horizontal, left, middle, right], piece ∈ d.glyphs.pieces) :
      IsLine (d.border t left middle right).toList := by
    intro c hc
    obtain ⟨piece, hm, hc⟩ := mem_border hc
    exact hp piece (h piece hm) c hc
  intro l hm
  rw [lines_eq, List.mem_cons, List.mem_cons, List.mem_cons, List.mem_append] at hm
  rcases hm with rfl | rfl | rfl | hm | hm
  · exact hborder (by simp [Glyphs.pieces])
  · intro c hc
    rcases mem_header ht hc with hc | hc
    · exact hv c hc
    · exact isLine_of_isOrdinary (List.forall_mem_singleton.2 hc) c (List.mem_singleton_self c)
  · exact hborder (by simp [Glyphs.pieces])
  · obtain ⟨row, -, rfl⟩ := List.mem_map.1 hm
    exact isLine_body hv row.1 row.2
  · rw [List.mem_singleton.1 hm]
    exact hborder (by simp [Glyphs.pieces])

theorem text_eq (d : Drawing) (t : TruthTable) :
    d.text t = String.join ((d.lines t).map (· ++ "\n")) := rfl

theorem lines_text (ht : (TruthTable.tabulate plan p).value = .ok t)
    (hp : ∀ piece ∈ d.glyphs.pieces, IsLine piece.toList) :
    Text.lines (d.text t) = d.lines t :=
  lines_join (isLine_of_mem_lines ht hp)

theorem body_eq (hc : d.colored = false) (value : Nat) (output : Bool) :
    d.body t value output = d.row (spaced (((t.inputs value).map digit).map String.singleton))
      (centered output (outputWidth t)) := by
  have h (width : Nat) : (fun b ↦ d.cell b width) = fun b ↦ centered b width := by
    funext b
    rw [cell, if_neg (by simp [hc])]
  rw [body, h, List.map_map]
  exact congrArg (d.row _) (congrFun (h _) output)

theorem cells_header (ht : (TruthTable.tabulate plan p).value = .ok t)
    (hg : d.glyphs.Legible bar) :
    cells (d.header t) =
      ((spaced (t.columns.map String.singleton)).toList, t.statement.toList) := by
  -- A bar that is a connective too can stand in the statement, but not among the names.
  apply cells_row hg.vertical_eq
  apply notMem_spaced hg.ne_blank
  intro hb
  obtain ⟨v, rfl⟩ := TruthTable.exists_name_of_mem_columns ht hb
  have hn := hg.not_letter
  rw [Variable.ofChar?_name] at hn
  cases hn

theorem cells_body (hg : d.glyphs.Legible bar) (hc : d.colored = false) (value : Nat)
    (output : Bool) :
    cells (d.body t value output) =
      ((spaced (((t.inputs value).map digit).map String.singleton)).toList,
        (centered output (outputWidth t)).toList) := by
  rw [body_eq hc]
  apply cells_row hg.vertical_eq
  apply notMem_spaced hg.ne_blank
  intro hb
  obtain ⟨b, -, hd⟩ := List.mem_map.1 hb
  exact hg.ne_digit b hd.symm

theorem visible_inputs (t : TruthTable) (value : Nat) :
    visible (spaced (((t.inputs value).map digit).map String.singleton)).toList =
      (t.inputs value).map digit := by
  apply visible_spaced
  intro c hc
  obtain ⟨b, -, rfl⟩ := List.mem_map.1 hc
  cases b <;> rfl

theorem readRow_body (ht : (TruthTable.tabulate plan p).value = .ok t)
    (hg : d.glyphs.Legible bar) (hc : d.colored = false) {row : Nat × Bool}
    (hr : row ∈ t.rows d.filter) : readRow (d.body t row.1 row.2) = row := by
  have hv := (TruthTable.isBinary_inputs ht hr).value_eq
  rw [readRow, cells_body hg hc]
  simp only [visible_inputs, visible_centered, hv]
  obtain ⟨value, output⟩ := row
  cases output <;> rfl

theorem read_text (ht : (TruthTable.tabulate plan p).value = .ok t)
    (hg : d.glyphs.Legible bar) (hc : d.colored = false) :
    read (d.text t) = t.excerpt d.filter := by
  have hn : visible (spaced (t.columns.map String.singleton)).toList = t.columns := by
    apply visible_spaced
    intro c hc
    obtain ⟨v, rfl⟩ := TruthTable.exists_name_of_mem_columns ht hc
    exact Sign.isBlank_symbol (.letter v)
  have hheader : cells ((d.lines t).getD 1 "") =
      ((spaced (t.columns.map String.singleton)).toList, t.statement.toList) := cells_header ht hg
  have hrows : ((d.lines t).drop 3).dropLast.map readRow = t.rows d.filter := by
    rw [lines_eq, List.drop_succ_cons, List.drop_succ_cons, List.drop_succ_cons, List.drop_zero,
      List.dropLast_concat, List.map_map]
    exact map_eq_self fun row hr ↦ readRow_body ht hg hc hr
  simp only [read, lines_text ht hg.isLine, hheader, hrows, hn]
  rw [TruthTable.columns, List.reverse_reverse, String.ofList_toList]
  rfl

/-- A table that is drawn without colors can be read again. Its rows are lines, in the order of the
numbers of the assignments that the filter admits, and each holds such a number in binary digits and
the output under that assignment. -/
theorem text_legible {d : Drawing} {t : TruthTable} {plan : Partition} {p : Parsed}
    (ht : (TruthTable.tabulate plan p).value = .ok t)
    (hg : d.glyphs = .pretty ∨ d.glyphs = .ascii) (hc : d.colored = false) :
    (Text.lines (d.text t)).length = 4 + (t.rows d.filter).length ∧
    (Text.lines (d.text t))[1]? = some (d.row
      ("  ".intercalate (p.signature.names.reverse.map String.singleton)) p.statement.render) ∧
    (t.rows d.filter).Pairwise (·.1 < ·.1) ∧
    (∀ value output, (value, output) ∈ t.rows d.filter ↔
      t.outputs[value]? = some output ∧ d.filter.admits output = true) ∧
    (∀ i value output, (t.rows d.filter)[i]? = some (value, output) →
      ∃ digits cell, (Text.lines (d.text t))[3 + i]? =
          some (d.row ("  ".intercalate (digits.map String.singleton)) cell) ∧
        IsBinary p.signature.size value digits ∧ visible cell.toList = [digit output]) ∧
    read (d.text t) = ⟨p.signature.names, p.statement.render, t.rows d.filter⟩ := by
  obtain ⟨bar, hl⟩ : ∃ bar, d.glyphs.Legible bar := by
    rcases hg with hg | hg
    · exact ⟨'│', hg ▸ Glyphs.legible_pretty⟩
    · exact ⟨'|', hg ▸ Glyphs.legible_ascii⟩
  have hread := read_text ht hl hc
  rw [lines_text ht hl.isLine]
  refine ⟨length_lines d t, ?_, t.pairwise_rows _, fun _ _ ↦ TruthTable.mem_rows, ?_, ?_⟩
  · obtain ⟨-, rfl⟩ := TruthTable.of_tabulate_eq_ok ht
    rfl
  · intro i value output hi
    have hr : (value, output) ∈ t.rows d.filter := List.mem_of_getElem? hi
    refine ⟨(t.inputs value).map digit, centered output (outputWidth t), ?_,
      TruthTable.isBinary_inputs ht hr, visible_centered output _⟩
    rw [getElem?_lines hi, body_eq hc]
    rfl
  · obtain ⟨-, rfl⟩ := TruthTable.of_tabulate_eq_ok ht
    exact hread

theorem text_legible_of_disjunction :
    ∃ t, (TruthTable.tabulate .whole ⟨.binary .or (.var ⟨26⟩) (.var ⟨27⟩),
        .ofBits (2 ^ 26 + 2 ^ 27)⟩).value = .ok t ∧
      Drawing.text { glyphs := .ascii, filter := .holding } t =
        "+----+-----+\n|b  a|a | b|\n+----+-----+\n" ++
        "|0  1|  1  |\n|1  0|  1  |\n|1  1|  1  |\n+----+-----+\n" ∧
      read (Drawing.text { glyphs := .ascii, filter := .holding } t) =
        ⟨['a', 'b'], "a | b", [(1, true), (2, true), (3, true)]⟩ := by
  have ht : (TruthTable.tabulate .whole ⟨.binary .or (.var ⟨26⟩) (.var ⟨27⟩),
      .ofBits (2 ^ 26 + 2 ^ 27)⟩).value =
        .ok ⟨['a', 'b'], "a | b", [false, true, true, true]⟩ := rfl
  obtain ⟨-, -, -, -, -, h⟩ := text_legible (d := { glyphs := .ascii, filter := .holding }) ht
    (.inr rfl) rfl
  exact ⟨_, ht, by decide, h⟩

end Drawing

end Sentential
