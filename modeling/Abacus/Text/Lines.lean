/-!
# Lines of a text

A line feed, a carriage return, or both in this order end a line. The last line needs no end.
-/

namespace Abacus.Text

/-- The lines of a text, where `line` holds the characters of the first line so far, the latest
first. -/
def linesFrom (line : List Char) : List Char → List String
  | [] => if line.isEmpty then [] else [String.ofList line.reverse]
  | '\r' :: '\n' :: rest => String.ofList line.reverse :: linesFrom [] rest
  | '\r' :: rest => String.ofList line.reverse :: linesFrom [] rest
  | '\n' :: rest => String.ofList line.reverse :: linesFrom [] rest
  | c :: rest => linesFrom (c :: line) rest

/-- The lines of a text without their ends. -/
def lines (text : String) : List String :=
  linesFrom [] text.toList

end Abacus.Text
