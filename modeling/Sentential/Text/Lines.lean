namespace Sentential.Text

/-- A line that ended in a line feed, given backwards. A carriage return before it is part of the
ending. -/
def endedLine : List Char → String
  | '\r' :: line => String.ofList line.reverse
  | line => String.ofList line.reverse

/-- The lines of a text after the start of a line, which is given backwards. -/
def linesAfter (line : List Char) : List Char → List String
  | [] => if line.isEmpty then [] else [String.ofList line.reverse]
  | '\n' :: text => endedLine line :: linesAfter [] text
  | c :: text => linesAfter (c :: line) text

/-- The lines of a text. The last one need not be ended. -/
def lines (text : String) : List String := linesAfter [] text.toList

end Sentential.Text
