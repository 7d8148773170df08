namespace Sentential.Text

/-- Where a text stands in a field wider than itself. -/
inductive Alignment
  | left
  | center
  | right
  deriving DecidableEq, Repr

/-- How a word is fitted into a column: cut to the precision, then filled up to the width. -/
structure Field where
  fill : Char := ' '
  alignment : Option Alignment := none
  width : Nat := 0
  precision : Option Nat := none
  deriving DecidableEq, Repr

namespace Field

/-- The field that leaves a text as it is. -/
def plain : Field := {}

def cut (f : Field) (text : List Char) : List Char :=
  match f.precision with
  | none => text
  | some n => text.take n

/-- The numbers of fill characters before and after a text of the given length. Words are on the
left if nothing else is asked for. The odd one of a centered text comes after it. -/
def margins (f : Field) (length : Nat) : Nat × Nat :=
  let free := f.width - length
  match f.alignment with
  | none | some .left => (0, free)
  | some .center => (free / 2, free - free / 2)
  | some .right => (free, 0)

def padChars (f : Field) (text : List Char) : List Char :=
  let kept := f.cut text
  let (before, after) := f.margins kept.length
  List.replicate before f.fill ++ kept ++ List.replicate after f.fill

def pad (f : Field) (text : String) : String := String.ofList (f.padChars text.toList)

@[simp] theorem padChars_plain (text : List Char) : plain.padChars text = text := by
  simp [plain, padChars, cut, margins]

@[simp] theorem pad_plain (text : String) : plain.pad text = text := by
  simp [pad]

end Field

end Sentential.Text
