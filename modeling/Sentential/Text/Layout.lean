import Sentential.Text.Field

namespace Sentential.Text

/-- How a value is written: which texts are fitted into the field of the whole and which are not. -/
inductive Layout
  | fixed (text : String)
  | fitted (text : String)
  /-- A value in the middle of a longer text. Its field is the plain one, whatever the field of the
  whole. -/
  | inner (l : Layout)
  | append (l r : Layout)
  deriving DecidableEq, Repr

namespace Layout

instance : Append Layout := ⟨append⟩

/-- A word or a number in the middle of a longer text. -/
def word (text : String) : Layout := inner (fitted text)

def intercalate (separator : String) : List Layout → Layout
  | [] => fixed ""
  | [l] => l
  | l :: l' :: ls => l ++ fixed separator ++ intercalate separator (l' :: ls)

def write (f : Field) : Layout → String
  | fixed text => text
  | fitted text => f.pad text
  | inner l => l.write .plain
  | append l r => l.write f ++ r.write f

variable (f : Field) (text : String) (l r : Layout)

@[simp] theorem write_fixed : (fixed text).write f = text := rfl

@[simp] theorem write_fitted : (fitted text).write f = f.pad text := rfl

@[simp] theorem write_inner : (inner l).write f = l.write .plain := rfl

@[simp] theorem write_word : (word text).write f = text := Field.pad_plain text

@[simp] theorem write_append : (l ++ r).write f = l.write f ++ r.write f := rfl

@[simp] theorem write_intercalate (separator : String) (ls : List Layout) :
    (intercalate separator ls).write f = separator.intercalate (ls.map (·.write f)) := by
  induction ls with
  | nil => rfl
  | cons l ls ih =>
    cases ls with
    | nil => simp [intercalate]
    | cons l' ls => simp [intercalate, ih, String.intercalate_cons_cons]

end Layout

end Sentential.Text
