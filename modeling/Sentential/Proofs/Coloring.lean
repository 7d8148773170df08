import Mathlib.Data.List.Forall2
import Sentential.Proofs.Drawing

namespace Sentential

namespace Text

/-- What a terminal is sent: characters to show, and codes. Green is for true and red for false. -/
inductive Signal
  | color (b : Bool)
  /-- No color any more. -/
  | plain
  | char (c : Char)
  deriving DecidableEq, Repr

def Signal.char? : Signal → Option Char
  | char c => some c
  | _ => none

def signals : List Char → List Signal
  | '\x1b' :: '[' :: '3' :: '2' :: 'm' :: text => .color true :: signals text
  | '\x1b' :: '[' :: '3' :: '1' :: 'm' :: text => .color false :: signals text
  | '\x1b' :: '[' :: '0' :: 'm' :: text => .plain :: signals text
  | c :: text => .char c :: signals text
  | [] => []

/-- A text without its codes. -/
def decolor (text : List Char) : List Char := (signals text).filterMap Signal.char?

/-- The stretches of text that have a color, after the beginning of one or after none. There is no
answer if a code is out of place or the last stretch does not end. -/
def coloredAfter? : Option (Bool × String) → List Signal → Option (List (Bool × String))
  | none, [] => some []
  | none, .char _ :: ss => coloredAfter? none ss
  | none, .color b :: ss => coloredAfter? (some (b, "")) ss
  | some (b, cell), .char c :: ss => coloredAfter? (some (b, cell.push c)) ss
  | some cell, .plain :: ss => (coloredAfter? none ss).map (cell :: ·)
  | _, _ => none

def colored? (text : List Char) : Option (List (Bool × String)) := coloredAfter? none (signals text)

theorem filterMap_char? (text : List Char) :
    (text.map Signal.char).filterMap Signal.char? = text := by
  rw [List.filterMap_map]
  exact List.filterMap_some

theorem signals_cons {c : Char} (h : c ≠ '\x1b') (text : List Char) :
    signals (c :: text) = .char c :: signals text := by
  rw [signals] <;> simp [h]

theorem signals_append {text : List Char} (h : '\x1b' ∉ text) (rest : List Char) :
    signals (text ++ rest) = text.map .char ++ signals rest := by
  induction text with
  | nil => rfl
  | cons c text ih =>
    obtain ⟨hc, ht⟩ := not_or.1 (List.mem_cons.not.1 h)
    rw [List.cons_append, signals_cons (Ne.symm hc), ih ht]
    rfl

theorem coloredAfter?_chars (b : Bool) (cell : String) (text : List Char) (ss : List Signal) :
    coloredAfter? (some (b, cell)) (text.map .char ++ ss) =
      coloredAfter? (some (b, cell ++ String.ofList text)) ss := by
  induction text generalizing cell with
  | nil => simp
  | cons c text ih =>
    have hp : cell.push c ++ String.ofList text = cell ++ String.ofList (c :: text) := by
      simp [← String.toList_inj]
    rw [List.map_cons, List.cons_append, coloredAfter?, ih, hp]

/-- Wherever the text stands, `plain` is left of it without its codes, and the stretches of it that
have a color are `cells`. -/
structure Paints (text plain : List Char) (cells : List (Bool × String)) : Prop where
  decolor_append : ∀ rest, decolor (text ++ rest) = plain ++ decolor rest
  colored?_append : ∀ rest, colored? (text ++ rest) = (colored? rest).map (cells ++ ·)

namespace Paints

variable {text plain text' plain' : List Char} {cells cells' : List (Bool × String)}

theorem of_notMem (h : '\x1b' ∉ text) : Paints text text [] where
  decolor_append rest := by
    rw [decolor, signals_append h, List.filterMap_append, filterMap_char?, decolor]
  colored?_append rest := by
    have hc (ss : List Signal) :
        coloredAfter? none (text.map .char ++ ss) = coloredAfter? none ss := by
      induction text with
      | nil => rfl
      | cons c text ih => exact ih (List.not_mem_of_not_mem_cons h)
    rw [colored?, signals_append h, hc]
    simp [colored?]

theorem append (h : Paints text plain cells) (h' : Paints text' plain' cells') :
    Paints (text ++ text') (plain ++ plain') (cells ++ cells') where
  decolor_append rest := by
    rw [List.append_assoc, h.decolor_append, h'.decolor_append, List.append_assoc]
  colored?_append rest := by
    rw [List.append_assoc, h.colored?_append, h'.colored?_append, Option.map_map]
    simp [Function.comp_def]

theorem decolor_eq (h : Paints text plain cells) : decolor text = plain := by
  simpa [decolor, signals] using h.decolor_append []

theorem colored?_eq (h : Paints text plain cells) : colored? text = some cells := by
  simpa [colored?, signals, coloredAfter?] using h.colored?_append []

end Paints

end Text

open Text

namespace Drawing

theorem signals_color (b : Bool) (rest : List Char) :
    signals ((color b).toList ++ rest) = .color b :: signals rest := by
  cases b <;> rfl

theorem signals_plainColor (rest : List Char) :
    signals (plainColor.toList ++ rest) = .plain :: signals rest := rfl

theorem paints_color (b : Bool) {text : List Char} (h : '\x1b' ∉ text) :
    Paints ((color b).toList ++ text ++ plainColor.toList) text [(b, String.ofList text)] where
  decolor_append rest := by
    rw [decolor, List.append_assoc, List.append_assoc, signals_color, signals_append h,
      signals_plainColor]
    simp only [List.filterMap_cons, List.filterMap_append, Signal.char?, filterMap_char?, decolor]
  colored?_append rest := by
    rw [colored?, List.append_assoc, List.append_assoc, signals_color, signals_append h,
      signals_plainColor, coloredAfter?, coloredAfter?_chars, coloredAfter?]
    simp [colored?]

/-- The same drawing without colors. -/
def plain (d : Drawing) : Drawing := { d with colored := false }

variable {d : Drawing} {t : TruthTable} {plan : Partition} {p : Parsed}

theorem escape_notMem_of_isOrdinary {text : List Char} (h : ∀ c ∈ text, isOrdinary c = true) :
    '\x1b' ∉ text := by
  intro hm
  cases h _ hm

theorem paints_cell (hc : d.colored = true) (b : Bool) (width : Nat) :
    Paints (d.cell b width).toList (d.plain.cell b width).toList [(b, d.plain.cell b width)] := by
  have hp : d.plain.cell b width = centered b width := rfl
  have h := paints_color b (escape_notMem_of_isOrdinary (isOrdinary_centered b width))
  rw [String.ofList_toList] at h
  rw [hp, cell, if_pos hc, String.toList_append, String.toList_append]
  exact h

theorem paints_spaced (hc : d.colored = true) (bits : List Bool) :
    Paints (spaced (bits.map (d.cell · 1))).toList (spaced (bits.map (d.plain.cell · 1))).toList
      (bits.map fun b ↦ (b, d.plain.cell b 1)) := by
  induction bits with
  | nil => exact .of_notMem (by simp [spaced])
  | cons b bits ih =>
    cases bits with
    | nil => simpa [spaced] using paints_cell hc b 1
    | cons b' bits =>
      have hb : Paints [' ', ' '] [' ', ' '] [] := .of_notMem (by decide)
      simpa [toList_spaced_cons_cons] using ((paints_cell hc b 1).append hb).append ih

theorem paints_row (hv : '\x1b' ∉ d.glyphs.vertical.toList) {input input' output output' : String}
    {cells cells' : List (Bool × String)} (hi : Paints input.toList input'.toList cells)
    (ho : Paints output.toList output'.toList cells') :
    Paints (d.row input output).toList (d.row input' output').toList (cells ++ cells') := by
  have hb := Paints.of_notMem hv
  simpa [toList_row] using hb.append (hi.append (hb.append (ho.append hb)))

theorem paints_body (hc : d.colored = true) (hv : '\x1b' ∉ d.glyphs.vertical.toList) (value : Nat)
    (output : Bool) : Paints (d.body t value output).toList (d.plain.body t value output).toList
      ((t.inputs value).map (fun b ↦ (b, d.plain.cell b 1)) ++
        [(output, d.plain.cell output (outputWidth t))]) :=
  paints_row hv (paints_spaced hc _) (paints_cell hc output _)

theorem escape_notMem_border (hg : ∀ piece ∈ d.glyphs.pieces, '\x1b' ∉ piece.toList)
    {left middle right : String}
    (h : ∀ piece ∈ [d.glyphs.horizontal, left, middle, right], piece ∈ d.glyphs.pieces) :
    '\x1b' ∉ (d.border t left middle right).toList := by
  intro hm
  obtain ⟨piece, hp, hm⟩ := mem_border hm
  exact hg piece (h piece hp) hm

theorem escape_notMem_header (ht : (TruthTable.tabulate plan p).value = .ok t)
    (hv : '\x1b' ∉ d.glyphs.vertical.toList) : '\x1b' ∉ (d.header t).toList := by
  intro hm
  rcases mem_header ht hm with hm | ho
  · exact hv hm
  · cases ho

/-- The frame of the table and its header have no codes in them. -/
theorem escape_notMem_of_not_row (ht : (TruthTable.tabulate plan p).value = .ok t)
    (hg : ∀ piece ∈ d.glyphs.pieces, '\x1b' ∉ piece.toList) {i : Nat} {line : String}
    (hi : i < 3 ∨ i = 3 + (t.rows d.filter).length) (h : (d.lines t)[i]? = some line) :
    '\x1b' ∉ line.toList := by
  have hv : '\x1b' ∉ d.glyphs.vertical.toList := hg _ d.glyphs.vertical_mem_pieces
  rw [lines_eq] at h
  obtain rfl | rfl | rfl | rfl : i = 0 ∨ i = 1 ∨ i = 2 ∨ i = (t.rows d.filter).length + 3 := by
    omega
  · obtain rfl := Option.some.inj h
    exact escape_notMem_border hg (by simp [Glyphs.pieces])
  · obtain rfl := Option.some.inj h
    exact escape_notMem_header ht hv
  · obtain rfl := Option.some.inj h
    exact escape_notMem_border hg (by simp [Glyphs.pieces])
  · have hl : line = d.border t d.glyphs.bottomLeft d.glyphs.bottom d.glyphs.bottomRight := by
      simpa using h.symm
    rw [hl]
    exact escape_notMem_border hg (by simp [Glyphs.pieces])

theorem paints_join {ls ls' : List String}
    (h : List.Forall₂ (fun l l' ↦ ∃ cells, Paints l.toList l'.toList cells) ls ls') :
    ∃ cells, Paints (String.join (ls.map (· ++ "\n"))).toList
      (String.join (ls'.map (· ++ "\n"))).toList cells := by
  induction h with
  | nil => exact ⟨[], .of_notMem (by decide)⟩
  | cons hl _ ih =>
    obtain ⟨cells, hl⟩ := hl
    obtain ⟨cells', ih⟩ := ih
    have hn : Paints ['\n'] ['\n'] [] := .of_notMem (by decide)
    refine ⟨cells ++ ([] ++ cells'), ?_⟩
    simpa [String.toList_join] using hl.append (hn.append ih)

theorem paints_text (ht : (TruthTable.tabulate plan p).value = .ok t) (hc : d.colored = true)
    (hg : ∀ piece ∈ d.glyphs.pieces, '\x1b' ∉ piece.toList) :
    ∃ cells, Paints (d.text t).toList (d.plain.text t).toList cells := by
  have hv : '\x1b' ∉ d.glyphs.vertical.toList := hg _ d.glyphs.vertical_mem_pieces
  have hborder {left middle right : String}
      (h : ∀ piece ∈ [d.glyphs.horizontal, left, middle, right], piece ∈ d.glyphs.pieces) :
      ∃ cells, Paints (d.border t left middle right).toList
        (d.plain.border t left middle right).toList cells :=
    ⟨[], .of_notMem (escape_notMem_border hg h)⟩
  apply paints_join
  rw [lines_eq, lines_eq]
  refine .cons (hborder (by simp [Glyphs.pieces])) (.cons ?_
    (.cons (hborder (by simp [Glyphs.pieces])) ?_))
  · exact ⟨[], .of_notMem (escape_notMem_header ht hv)⟩
  · refine List.rel_append ?_ (.cons (hborder (by simp [Glyphs.pieces])) .nil)
    rw [List.forall₂_map_left_iff, List.forall₂_map_right_iff, plain, List.forall₂_same]
    exact fun row _ ↦ ⟨_, paints_body hc hv row.1 row.2⟩

/-- Without its codes, a table in colors is the table without colors. The codes are around the cells
of the rows, in each row around all of them and nothing else, and each color goes with its digit. -/
theorem decolor_text (ht : (TruthTable.tabulate plan p).value = .ok t) (hc : d.colored = true)
    (hg : ∀ piece ∈ d.glyphs.pieces, '\x1b' ∉ piece.toList) :
    d.text t = String.join ((d.lines t).map (· ++ "\n")) ∧
    d.plain.text t = String.join ((d.plain.lines t).map (· ++ "\n")) ∧
    ((∀ piece ∈ d.glyphs.pieces, IsLine piece.toList) → Text.lines (d.text t) = d.lines t) ∧
    decolor (d.text t).toList = (d.plain.text t).toList ∧
    (d.lines t).length = 4 + (t.rows d.filter).length ∧
    (∀ i line, (d.lines t)[i]? = some line → i < 3 ∨ i = 3 + (t.rows d.filter).length →
      colored? line.toList = some []) ∧
    ∀ j value output, (t.rows d.filter)[j]? = some (value, output) →
      ∃ (line : String) (cells : List (Bool × String)) (cell : Bool × String),
        (d.lines t)[3 + j]? = some line ∧
        colored? line.toList = some (cells ++ [cell]) ∧
        (cells ++ [cell]).length = p.signature.size + 1 ∧
        (d.plain.lines t)[3 + j]? = some (d.plain.row (spaced (cells.map Prod.snd)) cell.2) ∧
        (cells ++ [cell]).map Prod.fst = t.inputs value ++ [output] ∧
        ∀ x ∈ cells ++ [cell], visible x.2.toList = [digit x.1] := by
  have hv : '\x1b' ∉ d.glyphs.vertical.toList := hg _ d.glyphs.vertical_mem_pieces
  refine ⟨d.text_eq t, d.plain.text_eq t, lines_text ht, ?_, length_lines d t, ?_, ?_⟩
  · obtain ⟨cells, h⟩ := paints_text ht hc hg
    exact h.decolor_eq
  · intro i line h hi
    exact (Paints.of_notMem (escape_notMem_of_not_row ht hg hi h)).colored?_eq
  · intro j value output hj
    refine ⟨_, _, _, getElem?_lines hj, (paints_body hc hv value output).colored?_eq,
      ?_, ?_, ?_, ?_⟩
    · have hr : (value, output) ∈ t.rows d.filter := List.mem_of_getElem? hj
      have hl := (TruthTable.isBinary_inputs ht hr).length_eq
      rw [List.length_map] at hl
      simp [hl]
    · have hp : (t.rows d.plain.filter)[j]? = some (value, output) := hj
      rw [getElem?_lines hp, List.map_map]
      rfl
    · simp [Function.comp_def]
    · intro x hx
      rw [List.mem_append, List.mem_map, List.mem_singleton] at hx
      rcases hx with ⟨b, -, rfl⟩ | rfl
      · exact visible_centered b 1
      · exact visible_centered output _

theorem decolor_text_of_negation :
    ∃ t, (TruthTable.tabulate .whole ⟨.not (.var ⟨26⟩), .ofBits (2 ^ 26)⟩).value = .ok t ∧
      Drawing.text { glyphs := .ascii, colored := true, filter := .failing } t =
        "+-+--+\n|a|!a|\n+-+--+\n|\x1b[32m1\x1b[0m|\x1b[31m0 \x1b[0m|\n+-+--+\n" ∧
      decolor (Drawing.text { glyphs := .ascii, colored := true, filter := .failing } t).toList =
        "+-+--+\n|a|!a|\n+-+--+\n|1|0 |\n+-+--+\n".toList := by
  have ht : (TruthTable.tabulate .whole ⟨.not (.var ⟨26⟩), .ofBits (2 ^ 26)⟩).value =
      .ok ⟨['a'], "!a", [true, false]⟩ := rfl
  obtain ⟨-, -, -, h, -⟩ :=
    decolor_text (d := { glyphs := .ascii, colored := true, filter := .failing }) ht rfl
      (by decide)
  exact ⟨_, ht, by decide, h.trans (by decide)⟩

end Drawing

end Sentential
