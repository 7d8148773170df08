import Sentential.TruthTable

namespace Sentential

/-- The pieces that the frame of a drawn table is made of. -/
structure Glyphs where
  horizontal : String
  vertical : String
  cross : String
  top : String
  bottom : String
  left : String
  right : String
  topLeft : String
  topRight : String
  bottomLeft : String
  bottomRight : String
  deriving DecidableEq, Repr

namespace Glyphs

def pretty : Glyphs where
  horizontal := "─"
  vertical := "│"
  cross := "┼"
  top := "┬"
  bottom := "┴"
  left := "├"
  right := "┤"
  topLeft := "┌"
  topRight := "┐"
  bottomLeft := "└"
  bottomRight := "┘"

def ascii : Glyphs where
  horizontal := "-"
  vertical := "|"
  cross := "+"
  top := "+"
  bottom := "+"
  left := "+"
  right := "+"
  topLeft := "+"
  topRight := "+"
  bottomLeft := "+"
  bottomRight := "+"

end Glyphs

structure Drawing where
  glyphs : Glyphs := .pretty
  colored : Bool := false
  filter : RowFilter := .any
  deriving DecidableEq, Repr

namespace Drawing

/-- The terminal codes for green, for true, and red, for false. -/
def color (b : Bool) : String := if b then "\x1b[32m" else "\x1b[31m"

def plainColor : String := "\x1b[0m"

/-- A digit in the middle of a cell; where there is no middle, one blank less before it. -/
def centered (b : Bool) (width : Nat) : String :=
  let before := (width - 1) / 2
  String.ofList
    (List.replicate before ' ' ++ Text.digit b :: List.replicate (width - before - 1) ' ')

def cell (d : Drawing) (b : Bool) (width : Nat) : String :=
  if d.colored then color b ++ centered b width ++ plainColor else centered b width

/-- The cells of the input columns stand two blanks apart. -/
def spaced (cells : List String) : String := "  ".intercalate cells

def inputWidth (t : TruthTable) : Nat := t.names.length + 2 * (t.names.length - 1)

def outputWidth (t : TruthTable) : Nat := t.statement.length

def border (d : Drawing) (t : TruthTable) (left middle right : String) : String :=
  let line (n : Nat) := String.join (List.replicate n d.glyphs.horizontal)
  left ++ line (inputWidth t) ++ middle ++ line (outputWidth t) ++ right

def row (d : Drawing) (input output : String) : String :=
  let bar := d.glyphs.vertical
  bar ++ input ++ bar ++ output ++ bar

def header (d : Drawing) (t : TruthTable) : String :=
  d.row (spaced (t.columns.map String.singleton)) t.statement

def body (d : Drawing) (t : TruthTable) (value : Nat) (output : Bool) : String :=
  d.row (spaced ((t.inputs value).map (d.cell · 1))) (d.cell output (outputWidth t))

/-- The lines of a drawn table: the header and the rows between three borders. -/
def lines (d : Drawing) (t : TruthTable) : List String :=
  let g := d.glyphs
  [d.border t g.topLeft g.top g.topRight, d.header t, d.border t g.left g.cross g.right] ++
    (t.rows d.filter).map (fun (value, output) ↦ d.body t value output) ++
    [d.border t g.bottomLeft g.bottom g.bottomRight]

def text (d : Drawing) (t : TruthTable) : String := String.join ((d.lines t).map (· ++ "\n"))

end Drawing

end Sentential
