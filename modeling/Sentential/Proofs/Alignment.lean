import Sentential.Proofs.Columns

namespace Sentential

open Text

namespace Drawing

variable {d : Drawing} {t : TruthTable} {plan : Partition} {p : Parsed}

/-- The character at an offset of a line, as a text of its own. -/
def pieceAt? (line : String) (offset : Nat) : Option String :=
  line.toList[offset]?.map String.singleton

/-- The pieces of the frame that stand on each line, from left to right. -/
def posts (d : Drawing) (t : TruthTable) : List (List String) :=
  let g := d.glyphs
  let bars := [g.vertical, g.vertical, g.vertical]
  [g.topLeft, g.top, g.topRight] :: bars :: [g.left, g.cross, g.right] ::
    ((t.rows d.filter).map (fun _ ↦ bars) ++ [[g.bottomLeft, g.bottom, g.bottomRight]])

theorem exists_eq_singleton {piece : String} (h : piece.length = 1) :
    ∃ c, piece = String.singleton c := by
  obtain ⟨c, hc⟩ := List.length_eq_one_iff.1 (String.length_toList ▸ h)
  exact ⟨c, by rw [← String.toList_inj, hc, String.toList_singleton]⟩

/-- A line has two cells of the given widths between three characters of the frame. -/
inductive Framed (inputWidth outputWidth : Nat) : String → List String → Prop
  | mk {left middle right : String} (hl : left.length = 1) (hm : middle.length = 1)
      (hr : right.length = 1) (input output : String) (hi : input.length = inputWidth)
      (ho : output.length = outputWidth) :
      Framed inputWidth outputWidth (left ++ input ++ middle ++ output ++ right)
        [left, middle, right]

variable {m n : Nat} {line : String} {pieces : List String}

theorem Framed.length_eq (h : Framed m n line pieces) : line.length = 3 + m + n := by
  obtain ⟨hl, hm, hr, input, output, rfl, rfl⟩ := h
  simp only [String.length_append, hl, hm, hr]
  omega

theorem Framed.pieceAt?_eq (h : Framed m n line pieces) :
    [0, m + 1, m + n + 2].map (pieceAt? line) = pieces.map some := by
  obtain ⟨hl, hm, hr, input, output, rfl, rfl⟩ := h
  obtain ⟨x, rfl⟩ := exists_eq_singleton hl
  obtain ⟨y, rfl⟩ := exists_eq_singleton hm
  obtain ⟨z, rfl⟩ := exists_eq_singleton hr
  have hline : (String.singleton x ++ input ++ String.singleton y ++ output ++
      String.singleton z).toList = x :: (input.toList ++ y :: (output.toList ++ [z])) := by
    simp
  have hy : (input.toList ++ y :: (output.toList ++ [z]))[input.length]? = some y := by
    simp [← String.length_toList]
  have hz : (input.toList ++ y :: (output.toList ++ [z]))[input.length + output.length + 1]? =
      some z := by
    have ha : input.length + output.length + 1 = (input.toList ++ y :: output.toList).length := by
      simp only [List.length_append, List.length_cons, String.length_toList]
      omega
    rw [ha, ← List.cons_append, ← List.append_assoc, List.getElem?_concat_length]
  simp only [List.map_cons, List.map_nil, pieceAt?, hline, List.getElem?_cons_zero,
    List.getElem?_cons_succ, hy, hz, Option.map_some]

theorem length_centered {width : Nat} (b : Bool) (h : 0 < width) :
    (centered b width).length = width := by
  rw [← String.length_toList, toList_centered]
  simp only [List.length_append, List.length_cons, List.length_replicate]
  omega

theorem framed_border (hh : d.glyphs.horizontal.length = 1) {left middle right : String}
    (hl : left.length = 1) (hm : middle.length = 1) (hr : right.length = 1) :
    Framed (inputWidth t) (outputWidth t) (d.border t left middle right) [left, middle, right] := by
  have hn (n : Nat) : (String.join (List.replicate n d.glyphs.horizontal)).length = n := by
    rw [← String.length_toList, String.toList_join]
    simp [List.flatMap_replicate, String.length_toList, hh]
  exact .mk hl hm hr _ _ (hn _) (hn _)

theorem framed_row (hv : d.glyphs.vertical.length = 1) {cs : List Char} {output : String}
    (hi : cs.length = t.names.length) (ho : output.length = outputWidth t) :
    Framed (inputWidth t) (outputWidth t) (d.row (spaced (cs.map String.singleton)) output)
      [d.glyphs.vertical, d.glyphs.vertical, d.glyphs.vertical] := by
  have hl : (spaced (cs.map String.singleton)).length = inputWidth t := by
    rw [length_spaced, hi, inputWidth]
  exact .mk hv hv hv _ _ hl ho

theorem framed_lines (hg : ∀ piece ∈ d.glyphs.pieces, piece.length = 1) (hc : d.colored = false)
    (hw : 0 < outputWidth t) :
    List.Forall₂ (Framed (inputWidth t) (outputWidth t)) (d.lines t) (d.posts t) := by
  simp only [Glyphs.pieces, List.forall_mem_cons] at hg
  obtain ⟨hh, hv, hcross, htop, hbottom, hl, hr, htl, htr, hbl, hbr, -⟩ := hg
  rw [lines_eq]
  refine .cons (framed_border hh htl htop htr) (.cons ?_ (.cons (framed_border hh hl hcross hr) ?_))
  · exact framed_row hv t.length_columns rfl
  · refine List.rel_append ?_ (.cons (framed_border hh hbl hbottom hbr) .nil)
    rw [List.forall₂_map_left_iff, List.forall₂_map_right_iff, List.forall₂_same]
    intro row _
    rw [body_eq hc]
    apply framed_row hv
    · rw [List.length_map, t.length_inputs]
    · exact length_centered row.2 hw

theorem outputCell_body (hc : d.colored = false) (hv : d.glyphs.vertical.length = 1)
    (hw : 0 < outputWidth t) (value : Nat) (output : Bool) :
    ((d.body t value output).toList.drop (inputWidth t + 2)).take (outputWidth t) =
      List.replicate ((outputWidth t - 1) / 2) ' ' ++
        digit output :: List.replicate (outputWidth t / 2) ' ' := by
  obtain ⟨bar, hb⟩ := exists_eq_singleton hv
  let input := spaced (((t.inputs value).map digit).map String.singleton)
  let cell := centered output (outputWidth t)
  have hi : input.toList.length = inputWidth t := by
    rw [String.length_toList, length_spaced, List.length_map, t.length_inputs, inputWidth]
  have hl : cell.toList.length = outputWidth t := by
    rw [String.length_toList, length_centered output hw]
  have hr : (d.body t value output).toList = (bar :: input.toList ++ [bar]) ++
      (cell.toList ++ [bar]) := by
    rw [body_eq hc, toList_row, hb]
    simp [input, cell]
  have hn : (bar :: input.toList ++ [bar]).length = inputWidth t + 2 := by simp [hi]
  have ha : outputWidth t - (outputWidth t - 1) / 2 - 1 = outputWidth t / 2 := by omega
  rw [hr, ← hn, List.drop_left, ← hl, List.take_left, hl, toList_centered, ha]

theorem inputWidth_eq (ht : (TruthTable.tabulate plan p).value = .ok t) :
    1 ≤ p.signature.size ∧ inputWidth t = 3 * p.signature.size - 2 := by
  obtain ⟨hn, rfl⟩ := TruthTable.of_tabulate_eq_ok ht
  have hk : 1 ≤ p.signature.letters.length := List.length_pos_iff.2 hn
  refine ⟨hk, ?_⟩
  simp only [inputWidth, Signature.names, List.length_map, Signature.size]
  omega

theorem outputWidth_eq (ht : (TruthTable.tabulate plan p).value = .ok t) :
    0 < outputWidth t ∧ outputWidth t = p.statement.render.length := by
  obtain ⟨-, rfl⟩ := TruthTable.of_tabulate_eq_ok ht
  refine ⟨Nat.pos_of_ne_zero fun h ↦ p.statement.render_ne_empty ?_, rfl⟩
  exact String.length_eq_zero_iff.1 h

/-- A table that is drawn without colors, with a frame of single characters, has lines of one
length. The frame passes every line at the same three offsets, and an output has as many blanks
after it as before it, or one more. -/
theorem lines_aligned (ht : (TruthTable.tabulate plan p).value = .ok t) (hc : d.colored = false)
    (hg : ∀ piece ∈ d.glyphs.pieces, piece.length = 1) :
    1 ≤ p.signature.size ∧
    (∀ line ∈ d.lines t,
      line.length = 3 + (3 * p.signature.size - 2) + p.statement.render.length) ∧
    List.Forall₂ (fun line pieces ↦
        [0, 3 * p.signature.size - 1, 3 * p.signature.size + p.statement.render.length].map
          (pieceAt? line) = pieces.map some)
      (d.lines t) (d.posts t) ∧
    (∀ j value output, (t.rows d.filter)[j]? = some (value, output) →
      ∃ line, (d.lines t)[3 + j]? = some line ∧
        (line.toList.drop (3 * p.signature.size)).take p.statement.render.length =
          List.replicate ((p.statement.render.length - 1) / 2) ' ' ++
            digit output :: List.replicate (p.statement.render.length / 2) ' ') ∧
    d.text t = String.join ((d.lines t).map (· ++ "\n")) ∧
    ((∀ piece ∈ d.glyphs.pieces, IsLine piece.toList) → Text.lines (d.text t) = d.lines t) := by
  obtain ⟨hk, hi⟩ := inputWidth_eq ht
  obtain ⟨hw, ho⟩ := outputWidth_eq ht
  have hv : d.glyphs.vertical.length = 1 := hg _ d.glyphs.vertical_mem_pieces
  have hf := framed_lines hg hc hw
  rw [hi, ho] at hf
  refine ⟨hk, ?_, ?_, ?_, d.text_eq t, lines_text ht⟩
  · exact ((List.forall₂_and_left _ _).1 (hf.imp fun _ _ h ↦ ⟨h.length_eq, h⟩)).1
  · refine hf.imp fun line pieces h ↦ ?_
    have hm : 3 * p.signature.size - 2 + 1 = 3 * p.signature.size - 1 := by omega
    have hr : 3 * p.signature.size - 2 + p.statement.render.length + 2 =
        3 * p.signature.size + p.statement.render.length := by omega
    rw [← hm, ← hr]
    exact h.pieceAt?_eq
  · intro j value output hj
    have hb := outputCell_body hc hv hw value output
    have hn : inputWidth t + 2 = 3 * p.signature.size := by omega
    rw [hn, ho] at hb
    exact ⟨_, getElem?_lines hj, hb⟩

theorem lines_aligned_of_negation :
    ∃ t, (TruthTable.tabulate .whole ⟨.not (.binary .and (.var ⟨26⟩) (.var ⟨27⟩)),
        .ofBits (2 ^ 26 + 2 ^ 27)⟩).value = .ok t ∧
      Drawing.text { glyphs := .ascii, filter := .failing } t =
        "+----+--------+\n|b  a|!(a & b)|\n+----+--------+\n|1  1|   0    |\n+----+--------+\n" ∧
      ∀ line ∈ Drawing.lines { glyphs := .ascii, filter := .failing } t, line.length = 15 := by
  have ht : (TruthTable.tabulate .whole ⟨.not (.binary .and (.var ⟨26⟩) (.var ⟨27⟩)),
      .ofBits (2 ^ 26 + 2 ^ 27)⟩).value =
        .ok ⟨['a', 'b'], "!(a & b)", [true, true, true, false]⟩ := rfl
  obtain ⟨-, hl, -⟩ := lines_aligned (d := { glyphs := .ascii, filter := .failing }) ht rfl
    (by decide)
  exact ⟨_, ht, by decide, hl⟩

end Drawing

end Sentential
